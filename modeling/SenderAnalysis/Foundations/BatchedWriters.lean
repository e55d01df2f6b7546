import Mathlib.Data.List.Flatten
import SenderAnalysis.Foundations.Runs

/-!
# Writers that collect rows in batches

A writer receives records, keeps the row of each in a buffer, and hands the buffer on as one
batch: when it is full, when no record comes for a while, when the last batch was handed on
too long ago, and when no record will come any more.

The batches together with the buffer are the rows of the records, in order,
and no batch is empty or too long (`run_ordered`), and a writer that has closed
holds nothing back (`run_closed`). With a clock that does not go back, a row is not held for
longer than the interval, as of the last time the clock was read (`run_fresh`).

The batches go to a sink, which may fail on one; then its rows are lost (`stored`).
-/

set_option autoImplicit false

namespace SenderAnalysis

/-- What a writer makes of a record, how many rows it collects, and how long it waits. -/
structure BatchedWriter (ρ α : Type*) where
  row : ρ → α
  limit : Nat
  interval : Nat

namespace BatchedWriter

variable {ρ α : Type*}

structure State (α : Type*) where
  buffer : List α := []
  lastFlush : Nat
  closed : Bool := false

/-- What the writer receives, with the clock: a record, nothing in time, or the news that
nothing will come any more. -/
inductive Input (ρ : Type*) where
  | record (rec : ρ) (now : Nat)
  | timeout (now : Nat)
  | disconnect

/-- Hand the buffer on as a batch. -/
def flush (state : State α) (now : Nat) : State α × List (List α) :=
  ({ state with buffer := [], lastFlush := now }, [state.buffer])

/-- Hand the buffer on if a condition holds and there is something in it. -/
def flushIf (condition : Bool) (state : State α) (now : Nat) : State α × List (List α) :=
  if condition && !state.buffer.isEmpty then flush state now else (state, [])

/-- Flush twice, the second time if the first batch is long ago. -/
def flushLate (writer : BatchedWriter ρ α) (flushed : State α × List (List α)) (now : Nat) :
    State α × List (List α) :=
  let late := flushIf (decide (writer.interval < now - flushed.1.lastFlush)) flushed.1 now
  (late.1, flushed.2 ++ late.2)

def step (writer : BatchedWriter ρ α) (state : State α) (input : Input ρ) :
    State α × List (List α) :=
  if state.closed then (state, [])
  else
    match input with
    | .record rec now =>
        let appended := { state with buffer := state.buffer ++ [writer.row rec] }
        writer.flushLate
          (flushIf (decide (writer.limit ≤ appended.buffer.length)) appended now) now
    | .timeout now => writer.flushLate (flushIf true state now) now
    | .disconnect =>
        let flushed := flushIf true state state.lastFlush
        ({ flushed.1 with closed := true }, flushed.2)

def run (writer : BatchedWriter ρ α) (startedAt : Nat) (inputs : List (Input ρ)) :
    State α × List (List α) :=
  runAll writer.step { lastFlush := startedAt } inputs

/-- The records received before the writer closed, with the time of each. -/
def received : List (Input ρ) → List (ρ × Nat)
  | [] => []
  | .record rec now :: rest => (rec, now) :: received rest
  | .timeout _ :: rest => received rest
  | .disconnect :: _ => []

/-- The times the clock was read at. -/
def readings : List (Input ρ) → List Nat
  | [] => []
  | .record _ now :: rest | .timeout now :: rest => now :: readings rest
  | .disconnect :: rest => readings rest

/-- The last time the clock was read at. -/
def clock (startedAt : Nat) (inputs : List (Input ρ)) : Nat := (readings inputs).getLastD startedAt

def Input.isDisconnect : Input ρ → Bool
  | .disconnect => true
  | .record _ _ | .timeout _ => false

/-! ## What a sink stores -/

/-- The rows that a sink stores of the batches it is handed, when it takes some of them and
fails on the others. -/
def stored (takes : Nat → Bool) (batches : List (List α)) : List α :=
  ((batches.zipIdx.filter fun batch => takes batch.2).map Prod.fst).flatten

section Inputs

variable (past : List (Input ρ))

theorem readings_append (more : List (Input ρ)) :
    readings (past ++ more) = readings past ++ readings more := by
  induction past with
  | nil => rfl
  | cons input past ih => cases input <;> simp [readings, ih]

theorem received_append_of_open (more : List (Input ρ))
    (running : past.any Input.isDisconnect = false) :
    received (past ++ more) = received past ++ received more := by
  induction past with
  | nil => rfl
  | cons input past ih =>
    rw [List.any_cons, Bool.or_eq_false_iff] at running
    cases input with
    | record rec now => simp [received, ih running.2]
    | timeout now => simp [received, ih running.2]
    | disconnect => cases running.1

theorem received_append_of_closed (more : List (Input ρ))
    (ended : past.any Input.isDisconnect = true) : received (past ++ more) = received past := by
  induction past with
  | nil => cases ended
  | cons input past ih =>
    cases input with
    | record rec now => simp [received, ih (by simpa [Input.isDisconnect] using ended)]
    | timeout now => simp [received, ih (by simpa [Input.isDisconnect] using ended)]
    | disconnect => rfl

end Inputs

/-! ## What a flush keeps -/

section Flushes

variable {writer : BatchedWriter ρ α} {state : State α} {now : Nat}

/-- What a writer holds and has handed on, when it has received some records: the rows are in
order, no batch is empty or too long, and the buffer is not too long either. -/
structure Ordered (writer : BatchedWriter ρ α) (records : List (ρ × Nat)) (bound : Nat)
    (state : State α) (batches : List (List α)) : Prop where
  rows : batches.flatten ++ state.buffer = records.map fun rec => writer.row rec.1
  sizes : ∀ batch ∈ batches, 0 < batch.length ∧ batch.length ≤ max 1 writer.limit
  buffered : state.buffer.length ≤ bound

theorem Ordered.flushIf {records : List (ρ × Nat)} {bound : Nat} {batches : List (List α)}
    (ordered : Ordered writer records bound state batches) (few : bound ≤ max 1 writer.limit)
    (condition : Bool) (now : Nat) :
    Ordered writer records bound (flushIf condition state now).1
      (batches ++ (flushIf condition state now).2) := by
  obtain ⟨rows, sizes, buffered⟩ := ordered
  unfold BatchedWriter.flushIf
  split
  · next flushes =>
    have some : 0 < state.buffer.length := by
      rw [Bool.and_eq_true, Bool.not_eq_true', List.isEmpty_eq_false_iff] at flushes
      exact List.length_pos_iff.mpr flushes.2
    refine ⟨?_, ?_, Nat.zero_le _⟩
    · simpa [flush] using rows
    · intro batch member
      rcases List.mem_append.mp member with before | here
      · exact sizes batch before
      · rw [List.mem_singleton.mp here]
        exact ⟨some, Nat.le_trans buffered few⟩
  · exact ⟨by simpa using rows, by simpa using sizes, buffered⟩

theorem Ordered.flushLate {records : List (ρ × Nat)} {bound : Nat} {batches : List (List α)}
    {flushed : State α × List (List α)}
    (ordered : Ordered writer records bound flushed.1 (batches ++ flushed.2))
    (few : bound ≤ max 1 writer.limit) (now : Nat) :
    Ordered writer records bound (writer.flushLate flushed now).1
      (batches ++ (writer.flushLate flushed now).2) := by
  have late := ordered.flushIf few (decide (writer.interval < now - flushed.1.lastFlush)) now
  rwa [List.append_assoc] at late

/-- A row is added to the buffer, which is handed on when it is full. -/
theorem Ordered.record {records : List (ρ × Nat)} {batches : List (List α)}
    (ordered : Ordered writer records (max 1 writer.limit - 1) state batches) (rec : ρ)
    (now : Nat) :
    let appended := { state with buffer := state.buffer ++ [writer.row rec] }
    let flushed :=
      BatchedWriter.flushIf (decide (writer.limit ≤ appended.buffer.length)) appended now
    Ordered writer (records ++ [(rec, now)]) (max 1 writer.limit - 1) flushed.1
      (batches ++ flushed.2) := by
  intro appended flushed
  obtain ⟨rows, sizes, buffered⟩ := ordered
  have added : Ordered writer (records ++ [(rec, now)]) (max 1 writer.limit) appended batches := by
    refine ⟨by simp [appended, ← rows], sizes, ?_⟩
    simp only [appended, List.length_append, List.length_singleton]
    omega
  have full := added.flushIf (Nat.le_refl _) (decide (writer.limit ≤ appended.buffer.length)) now
  refine ⟨full.rows, full.sizes, ?_⟩
  simp only [flushed, BatchedWriter.flushIf]
  split
  · exact Nat.zero_le _
  · next quiet =>
    have short : ¬ writer.limit ≤ appended.buffer.length := by
      simpa [appended] using quiet
    change appended.buffer.length ≤ _
    omega

/-- The records whose rows are held were received after the last flush. -/
def Stamped (writer : BatchedWriter ρ α) (records : List (ρ × Nat)) (now : Nat)
    (state : State α) : Prop :=
  state.lastFlush ≤ now ∧ ∃ held, held <:+ records ∧
    held.map (fun rec => writer.row rec.1) = state.buffer ∧
    ∀ rec ∈ held, state.lastFlush ≤ rec.2

theorem Stamped.flushIf {records : List (ρ × Nat)} (stamped : Stamped writer records now state)
    (condition : Bool) : Stamped writer records now (flushIf condition state now).1 := by
  unfold BatchedWriter.flushIf
  split
  · exact ⟨Nat.le_refl now, [], List.nil_suffix, rfl, fun _ absent => by cases absent⟩
  · exact stamped

theorem Stamped.later {records : List (ρ × Nat)} (stamped : Stamped writer records now state)
    {later : Nat} (passes : now ≤ later) : Stamped writer records later state :=
  ⟨Nat.le_trans stamped.1 passes, stamped.2⟩

theorem Stamped.empty {records : List (ρ × Nat)} (passed : state.lastFlush ≤ now)
    (nothing : state.buffer = []) : Stamped writer records now state :=
  ⟨passed, [], List.nil_suffix, nothing.symm, fun _ absent => by cases absent⟩

theorem Stamped.record {records : List (ρ × Nat)} (stamped : Stamped writer records now state)
    (rec : ρ) :
    Stamped writer (records ++ [(rec, now)]) now
      { state with buffer := state.buffer ++ [writer.row rec] } := by
  obtain ⟨passed, held, ⟨earlier, rfl⟩, rows, stamps⟩ := stamped
  refine ⟨passed, held ++ [(rec, now)], ⟨earlier, by simp⟩, by simp [rows], ?_⟩
  intro other member
  rcases List.mem_append.mp member with before | here
  · exact stamps other before
  · rw [List.mem_singleton.mp here]
    exact passed

/-- After the second flush, what is held is not late. -/
theorem flushLate_inTime (flushed : State α × List (List α))
    (held : (writer.flushLate flushed now).1.buffer ≠ []) :
    now ≤ (writer.flushLate flushed now).1.lastFlush + writer.interval := by
  unfold flushLate BatchedWriter.flushIf at *
  dsimp only at *
  split at held
  · exact absurd rfl held
  · next quiet =>
    rw [if_neg quiet]
    rw [Bool.and_eq_true, not_and, decide_eq_true_eq] at quiet
    have soon : ¬ writer.interval < now - flushed.1.lastFlush := fun late => by
      have empty := quiet late
      rw [Bool.not_eq_true', Bool.not_eq_false, List.isEmpty_iff] at empty
      exact held empty
    dsimp only
    omega

end Flushes

/-! ## Runs -/

section Runs

variable (writer : BatchedWriter ρ α) (startedAt : Nat)

theorem run_concat (past : List (Input ρ)) (input : Input ρ) :
    writer.run startedAt (past ++ [input]) =
      ((writer.step (writer.run startedAt past).1 input).1,
        (writer.run startedAt past).2 ++ (writer.step (writer.run startedAt past).1 input).2) :=
  runAll_concat ..

/-- A writer has closed when it was told that nothing will come; then it holds nothing. -/
theorem run_closed (inputs : List (Input ρ)) :
    (writer.run startedAt inputs).1.closed = inputs.any Input.isDisconnect ∧
      ((writer.run startedAt inputs).1.closed → (writer.run startedAt inputs).1.buffer = []) := by
  have frame : ∀ condition (state : State α) now,
      (flushIf condition state now).1.closed = state.closed := by
    intro condition state now
    unfold flushIf
    split <;> rfl
  induction inputs using List.reverseRecOn with
  | nil => exact ⟨rfl, fun ended => by cases ended⟩
  | append_singleton past input ih =>
    rw [run_concat, List.any_append, ← ih.1]
    generalize (writer.run startedAt past).1 = state at ih ⊢
    unfold step
    cases running : state.closed with
    | true => exact ⟨by simp [running], fun _ => ih.2 running⟩
    | false =>
      cases input with
      | record rec now | timeout now =>
        simp [flushLate, frame, running, Input.isDisconnect]
      | disconnect =>
        refine ⟨by simp [Input.isDisconnect], fun _ => ?_⟩
        change (flushIf true state state.lastFlush).1.buffer = []
        unfold flushIf flush
        by_cases empty : state.buffer = [] <;> simp [empty]

/-- What was received before one more input. -/
theorem received_concat (past : List (Input ρ)) (input : Input ρ) :
    received (past ++ [input]) =
      if (writer.run startedAt past).1.closed then received past
      else received past ++ received [input] := by
  rw [(run_closed writer startedAt past).1]
  split
  · next ended => exact received_append_of_closed past [input] ended
  · next running =>
    exact received_append_of_open past [input] (Bool.eq_false_iff.mpr running)

/-- **The batches and the buffer are the rows of the records received, in order, and no batch
is empty or longer than the limit.** -/
theorem run_ordered (inputs : List (Input ρ)) :
    Ordered writer (received inputs) (max 1 writer.limit - 1) (writer.run startedAt inputs).1
      (writer.run startedAt inputs).2 := by
  induction inputs using List.reverseRecOn with
  | nil => exact ⟨rfl, by simp [run], Nat.zero_le _⟩
  | append_singleton past input ih =>
    rw [run_concat, received_concat writer startedAt]
    generalize writer.run startedAt past = before at ih ⊢
    unfold step
    by_cases running : before.1.closed
    · rw [if_pos running, if_pos running]
      simpa using ih
    · rw [if_neg running, if_neg running]
      have few : max 1 writer.limit - 1 ≤ max 1 writer.limit := Nat.sub_le ..
      cases input with
      | record rec now => exact (ih.record rec now).flushLate few now
      | timeout now =>
        have late := (ih.flushIf few true now).flushLate few now
        simpa [received] using late
      | disconnect =>
        obtain ⟨rows, sizes, buffered⟩ := ih.flushIf few true before.1.lastFlush
        exact ⟨by simpa [received] using rows, sizes, buffered⟩

/-- The time does not go back. -/
def Steady (startedAt : Nat) (inputs : List (Input ρ)) : Prop :=
  (startedAt :: readings inputs).Pairwise (· ≤ ·)

instance (startedAt : Nat) (inputs : List (Input ρ)) : Decidable (Steady startedAt inputs) :=
  inferInstanceAs (Decidable (List.Pairwise _ _))

theorem Steady.past {startedAt : Nat} {past : List (Input ρ)} {input : Input ρ}
    (steady : Steady startedAt (past ++ [input])) : Steady startedAt past := by
  rw [Steady, readings_append, ← List.cons_append] at steady
  exact (List.pairwise_append.mp steady).1

theorem Steady.last {startedAt : Nat} {past : List (Input ρ)} {input : Input ρ} {now : Nat}
    (steady : Steady startedAt (past ++ [input])) (reads : readings [input] = [now]) :
    clock startedAt past ≤ now ∧ clock startedAt (past ++ [input]) = now := by
  rw [Steady, readings_append, reads, ← List.cons_append] at steady
  constructor
  · have last : clock startedAt past ∈ startedAt :: readings past := List.getLastD_mem_cons
    exact (List.pairwise_append.mp steady).2.2 _ last now (List.mem_singleton_self now)
  · rw [clock, readings_append, reads]
    simp

theorem Steady.clock_le {startedAt : Nat} {past : List (Input ρ)} {input : Input ρ}
    (steady : Steady startedAt (past ++ [input])) :
    clock startedAt past ≤ clock startedAt (past ++ [input]) := by
  cases input with
  | record rec now | timeout now =>
    obtain ⟨passes, last⟩ := @Steady.last _ _ _ _ now steady rfl
    rwa [last]
  | disconnect =>
    rw [clock, clock, readings_append]
    exact Nat.le_of_eq (congrArg (fun times => List.getLastD times startedAt)
      (List.append_nil _).symm)

/-- What is held was received after the last flush, and the last flush is not long ago. -/
theorem run_stamped {inputs : List (Input ρ)} (steady : Steady startedAt inputs) :
    Stamped writer (received inputs) (clock startedAt inputs) (writer.run startedAt inputs).1 ∧
      ((writer.run startedAt inputs).1.buffer ≠ [] →
        clock startedAt inputs ≤
          (writer.run startedAt inputs).1.lastFlush + writer.interval) := by
  induction inputs using List.reverseRecOn with
  | nil =>
    exact ⟨⟨Nat.le_refl _, [], List.nil_suffix, rfl, fun _ absent => by cases absent⟩,
      fun held => absurd rfl held⟩
  | append_singleton past input ih =>
    obtain ⟨stamped, inTime⟩ := ih steady.past
    have held := (run_closed writer startedAt past).2
    rw [run_concat, received_concat writer startedAt]
    generalize writer.run startedAt past = before at stamped inTime held ⊢
    unfold step
    by_cases running : before.1.closed
    · rw [if_pos running, if_pos running]
      exact ⟨.empty (Nat.le_trans stamped.1 steady.clock_le) (held running),
        fun some => absurd (held running) some⟩
    · rw [if_neg running, if_neg running]
      cases input with
      | record rec now =>
        obtain ⟨passes, clock'⟩ := @Steady.last _ _ _ _ now steady rfl
        rw [clock']
        have recorded := (stamped.later passes).record rec
        exact ⟨(recorded.flushIf _).flushIf _, flushLate_inTime _⟩
      | timeout now =>
        obtain ⟨passes, clock'⟩ := @Steady.last _ _ _ _ now steady rfl
        rw [clock']
        have waited := stamped.later passes
        refine ⟨?_, flushLate_inTime _⟩
        have none : received past ++ received [Input.timeout now] = received past :=
          List.append_nil _
        rw [none]
        exact (waited.flushIf true).flushIf _
      | disconnect =>
        have empty : (flushIf true before.1 before.1.lastFlush).1.buffer = [] ∧
            (flushIf true before.1 before.1.lastFlush).1.lastFlush = before.1.lastFlush := by
          unfold flushIf flush
          by_cases some : before.1.buffer = [] <;> simp [some]
        have unread : clock startedAt (past ++ [Input.disconnect]) = clock startedAt past := by
          rw [clock, readings_append]
          exact congrArg (fun times => List.getLastD times startedAt) (List.append_nil _)
        rw [unread]
        exact ⟨.empty (empty.2.symm ▸ stamped.1) empty.1, fun some => absurd empty.1 some⟩

/-- **A row is not held for longer than the interval**: of what is held when the clock was
last read, every record was received within the interval before. -/
theorem run_fresh {inputs : List (Input ρ)} (steady : Steady startedAt inputs) :
    ∃ held, held <:+ received inputs ∧
      held.map (fun rec => writer.row rec.1) = (writer.run startedAt inputs).1.buffer ∧
      ∀ rec ∈ held, clock startedAt inputs ≤ rec.2 + writer.interval := by
  obtain ⟨⟨_, held, suffix, rows, stamps⟩, inTime⟩ := run_stamped writer startedAt steady
  refine ⟨held, suffix, rows, fun rec member => ?_⟩
  have some : (writer.run startedAt inputs).1.buffer ≠ [] := by
    rw [← rows]
    exact fun none => List.ne_nil_of_mem member (List.map_eq_nil_iff.mp none)
  have soon := inTime some
  have stamp := stamps rec member
  omega

end Runs

end BatchedWriter

end SenderAnalysis

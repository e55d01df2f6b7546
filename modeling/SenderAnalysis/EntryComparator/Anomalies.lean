import SenderAnalysis.Foundations.Traces
import Mathlib.Algebra.BigOperators.Group.List.Basic
import Mathlib.Algebra.Order.Ring.Nat

/-!
# The anomalies file

Every second a thread reads the counters of what was dropped or failed, one after the other,
and writes a line for each counter that has grown since it last read it. It does the same with
the records that the correlator could not hand on. Meanwhile the other threads count, also
between two of its reads, and at the end one of them tells it to stop.

The thread does not look whether the file takes a line, and does not write it again. What the
file says of a counter was counted after the thread had first read it, and what was counted
when a round begins is in the file when the round is over, or was in a line that the file did
not take (`anomalies_accounted`). The thread does not read the dropped records first, so of
these the lines say all (`drops_accounted`).
-/

set_option autoImplicit false

namespace SenderAnalysis.EntryComparator.Anomalies

/-- The counters, in the order they are read. -/
inductive Counter where
  | ysChannelFull
  | ysDecodeError
  | ysReconnects
  | ssUdpChannelFull
  | ssObsChannelFull
  | ssShredParseError
  | ssDeshredError
  | ssEntryDecodeError
  | ssFecSetTimeout
deriving DecidableEq, Repr

namespace Counter

def all : List Counter :=
  [ysChannelFull, ysDecodeError, ysReconnects, ssUdpChannelFull, ssObsChannelFull,
    ssShredParseError, ssDeshredError, ssEntryDecodeError, ssFecSetTimeout]

def name : Counter → String
  | ysChannelFull => "ys_channel_full"
  | ysDecodeError => "ys_decode_error"
  | ysReconnects => "ys_reconnects"
  | ssUdpChannelFull => "ss_udp_channel_full"
  | ssObsChannelFull => "ss_obs_channel_full"
  | ssShredParseError => "ss_shred_parse_error"
  | ssDeshredError => "ss_deshred_error"
  | ssEntryDecodeError => "ss_entry_decode_error"
  | ssFecSetTimeout => "ss_fec_set_timeout"

theorem mem_all (counter : Counter) : counter ∈ all := by
  cases counter <;> decide

theorem nodup_all : all.Nodup := by decide

theorem name_inj {counter other : Counter} : counter.name = other.name ↔ counter = other := by
  cases counter <;> cases other <;> decide

end Counter

abbrev CounterSnapshot := Counter → Nat

/-- The names of the counters that have grown, and by how much. -/
def deltasVs (cur prev : CounterSnapshot) : List (String × Nat) :=
  Counter.all.filterMap fun counter =>
    let delta := cur counter - prev counter
    if delta > 0 then some (counter.name, delta) else none

/-- A line of the file. -/
inductive Line where
  | channelFullDropOrError (tsNs : Nat) (counter : String) (countDelta : Nat)
  | diffChannelFullDrop (tsNs countDelta : Nat)
deriving DecidableEq, Repr

/-- How far the thread is: about to open the file, in its first reading of the counters, about
to test for the stop, asleep, in the reading of a round, or between the lines of the counters
and the dropped records. -/
inductive Phase where
  | opening
  | priming (left : List Counter)
  | testing
  | sleeping
  | reading (left : List Counter) (cur : CounterSnapshot)
  | dropped (nowNs : Nat) (cur : CounterSnapshot)
  | ended

/-- The counters, what the thread remembers of them, and the lines it wrote, each with whether
the file took it. -/
structure State where
  counts : CounterSnapshot := fun _ => 0
  diffDropped : Nat := 0
  stop : Bool := false
  prev : CounterSnapshot := fun _ => 0
  prevDiffDropped : Nat := 0
  lines : List (Line × Bool) := []
  phase : Phase := .opening

/-- Another thread counts or asks for the stop, the file cannot be opened, or the thread goes
on, at a time and with a file that takes some lines. -/
inductive Input where
  | inc (counter : Counter)
  | incDiffDropped
  | askStop
  | cannotOpen
  | proceed (nowNs : Nat) (takes : Line → Bool)

/-- The next step of the thread. It reads one counter at a time. -/
def proceed (nowNs : Nat) (takes : Line → Bool) (state : State) : State :=
  match state.phase with
  | .opening => { state with phase := .priming Counter.all }
  | .priming [] => { state with phase := .testing }
  | .priming (counter :: left) =>
      { state with
          prev := Function.update state.prev counter (state.counts counter)
          phase := .priming left }
  | .testing => { state with phase := if state.stop then .ended else .sleeping }
  | .sleeping => { state with phase := .reading Counter.all fun _ => 0 }
  | .reading [] cur =>
      let lines := (deltasVs cur state.prev).map fun (name, delta) =>
        Line.channelFullDropOrError nowNs name delta
      { state with
          lines := state.lines ++ lines.map fun line => (line, takes line)
          phase := .dropped nowNs cur }
  | .reading (counter :: left) cur =>
      { state with
          phase := .reading left (Function.update cur counter (state.counts counter)) }
  | .dropped nowNs cur =>
      let curDropped := state.diffDropped
      let line := Line.diffChannelFullDrop nowNs (curDropped - state.prevDiffDropped)
      if curDropped > state.prevDiffDropped then
        { state with
            lines := state.lines ++ [(line, takes line)]
            prevDiffDropped := curDropped
            prev := cur
            phase := .testing }
      else { state with prev := cur, phase := .testing }
  | .ended => state

def step (state : State) : Input → State
  | .inc counter =>
      { state with counts := Function.update state.counts counter (state.counts counter + 1) }
  | .incDiffDropped => { state with diffDropped := state.diffDropped + 1 }
  | .askStop => { state with stop := true }
  | .cannotOpen =>
      match state.phase with
      | .opening => { state with phase := .ended }
      | .priming _ | .testing | .sleeping | .reading _ _ | .dropped _ _ | .ended => state
  | .proceed nowNs takes => proceed nowNs takes state

def run (inputs : List Input) : State := inputs.foldl step {}

theorem run_concat (past : List Input) (input : Input) :
    run (past ++ [input]) = step (run past) input := by
  rw [run, List.foldl_concat]
  rfl

/-! ## What the lines say -/

/-- By how much a counter has grown, according to a line. -/
def Line.growth (counter : Counter) : Line → Nat
  | channelFullDropOrError _ name countDelta => if name = counter.name then countDelta else 0
  | diffChannelFullDrop _ _ => 0

/-- How many records were dropped, according to a line. -/
def Line.drops : Line → Nat
  | channelFullDropOrError _ _ _ => 0
  | diffChannelFullDrop _ countDelta => countDelta

/-- What the lines say together. -/
def sumOf (amount : Line → Nat) (lines : List (Line × Bool)) : Nat :=
  (lines.map fun line => amount line.1).sum

/-- The lines that the file took. -/
def State.written (state : State) : List (Line × Bool) := state.lines.filter Prod.snd

/-- The lines that the file did not take. -/
def State.lost (state : State) : List (Line × Bool) := state.lines.filter fun line => !line.2

/-- What the thread has said of a counter, in lines that the file took or did not take. -/
def State.reported (state : State) (counter : Counter) : Nat :=
  (state.lines.map fun line => line.1.growth counter).sum

def State.reportedDrops (state : State) : Nat := (state.lines.map fun line => line.1.drops).sum

/-- Every line was taken or lost. -/
theorem sumOf_written_add_lost (amount : Line → Nat) (state : State) :
    sumOf amount state.written + sumOf amount state.lost =
      (state.lines.map fun line => amount line.1).sum := by
  unfold State.written State.lost
  induction state.lines with
  | nil => rfl
  | cons line rest ih =>
    obtain ⟨line, taken⟩ := line
    rw [List.map_cons, List.sum_cons, ← ih]
    cases taken <;> simp [sumOf] <;> omega

/-- The value of a counter that the lines are about: the one that is remembered, or the one of
this round as soon as its lines are written. -/
def State.read (state : State) (counter : Counter) : Nat :=
  match state.phase with
  | .dropped _ cur => cur counter
  | .opening | .priming _ | .testing | .sleeping | .reading _ _ | .ended => state.prev counter

/-- The lines of a round, with whether the file takes them. -/
def roundLines (nowNs : Nat) (takes : Line → Bool) (deltas : List (String × Nat)) :
    List (Line × Bool) :=
  (deltas.map fun (name, delta) => Line.channelFullDropOrError nowNs name delta).map
    fun line => (line, takes line)

theorem sum_growth_roundLines (counter : Counter) (nowNs : Nat) (takes : Line → Bool)
    (cur prev : CounterSnapshot) :
    ((roundLines nowNs takes (deltasVs cur prev)).map fun line => line.1.growth counter).sum =
      cur counter - prev counter := by
  have each : ∀ counters : List Counter, counters.Nodup →
      ((counters.filterMap fun other =>
          if cur other - prev other > 0 then some (other.name, cur other - prev other)
          else none).map fun grown =>
        (Line.channelFullDropOrError nowNs grown.1 grown.2).growth counter).sum =
      if counter ∈ counters then cur counter - prev counter else 0 := by
    intro counters nodup
    induction counters with
    | nil => rfl
    | cons other rest ih =>
      obtain ⟨fresh, nodup'⟩ := List.nodup_cons.mp nodup
      have tail := ih nodup'
      rw [List.filterMap_cons]
      by_cases grows : cur other - prev other > 0
      · simp only [if_pos grows, List.map_cons, List.sum_cons, tail, List.mem_cons]
        by_cases same : other = counter
        · subst same
          simp [Line.growth, fresh]
        · simp [Line.growth, Counter.name_inj, same, Ne.symm same]
      · simp only [if_neg grows, tail, List.mem_cons]
        by_cases same : counter = other
        · subst same
          simp only [fresh, if_false, or_false, if_true]
          omega
        · simp [same]
  rw [roundLines, List.map_map, List.map_map]
  exact (each Counter.all Counter.nodup_all).trans (if_pos counter.mem_all)

theorem sum_drops_roundLines (nowNs : Nat) (takes : Line → Bool) (deltas : List (String × Nat)) :
    ((roundLines nowNs takes deltas).map fun line => line.1.drops).sum = 0 := by
  induction deltas with
  | nil => rfl
  | cons _ rest ih => simpa [roundLines, Line.drops] using ih

/-! ## One step -/

section Steps

variable {counter : Counter} {base before : Nat} {state : State}

/-- The thread has read the counter for the first time, when it stood at a number. Its lines
make up the difference. -/
structure Tracks (counter : Counter) (base : Nat) (state : State) : Prop where
  opened : state.phase ≠ .opening
  primed : ∀ left, state.phase = .priming left → counter ∉ left
  sum : base + state.reported counter = state.read counter
  seen : state.read counter ≤ state.counts counter
  reading : ∀ left cur, state.phase = .reading left cur → counter ∉ left →
    state.prev counter ≤ cur counter ∧ cur counter ≤ state.counts counter

theorem Tracks.of_counts (tracks : Tracks counter base state) {counts : CounterSnapshot}
    (grows : state.counts counter ≤ counts counter) :
    Tracks counter base { state with counts := counts } where
  opened := tracks.opened
  primed := tracks.primed
  sum := tracks.sum
  seen := Nat.le_trans tracks.seen grows
  reading left cur phase past :=
    (tracks.reading left cur phase past).imp_right fun below => Nat.le_trans below grows

theorem tracks_proceed (tracks : Tracks counter base state) (nowNs : Nat) (takes : Line → Bool) :
    Tracks counter base (proceed nowNs takes state) := by
  have sum := tracks.sum
  have seen := tracks.seen
  unfold State.read at sum seen
  unfold proceed
  split
  · next phase => exact absurd phase tracks.opened
  · next phase =>
    rw [phase] at sum seen
    exact ⟨by simp, by simp, sum, seen, by simp⟩
  · next other left phase =>
    rw [phase] at sum seen
    have fresh := tracks.primed _ phase
    have same : Function.update state.prev other (state.counts other) counter =
        state.prev counter := by
      refine Function.update_of_ne ?_ _ _
      rintro rfl
      exact fresh List.mem_cons_self
    refine ⟨by simp, ?_, sum.trans same.symm, same.trans_le seen, by simp⟩
    rintro left' equal
    rw [← Phase.priming.inj equal]
    exact fun member => fresh (List.mem_cons_of_mem _ member)
  · next phase =>
    rw [phase] at sum seen
    by_cases stopped : state.stop = true
    · simp only [if_pos stopped]
      exact ⟨by simp, by simp, sum, seen, by simp⟩
    · simp only [if_neg stopped]
      exact ⟨by simp, by simp, sum, seen, by simp⟩
  · next phase =>
    rw [phase] at sum seen
    refine ⟨by simp, by simp, sum, seen, ?_⟩
    rintro left cur equal past
    rw [← (Phase.reading.inj equal).1] at past
    exact absurd counter.mem_all past
  · next cur phase =>
    rw [phase] at sum seen
    obtain ⟨grows, below⟩ := tracks.reading [] cur phase List.not_mem_nil
    refine ⟨by simp, by simp, ?_, below, by simp⟩
    change base + ((state.lines ++ roundLines nowNs takes (deltasVs cur state.prev)).map
      fun line => line.1.growth counter).sum = cur counter
    rw [List.map_append, List.sum_append, sum_growth_roundLines, ← Nat.add_assoc]
    change base + state.reported counter + _ = _
    rw [sum]
    exact Nat.add_sub_cancel' grows
  · next other left cur phase =>
    rw [phase] at sum seen
    refine ⟨by simp, by simp, sum, seen, ?_⟩
    rintro left' cur' equal past
    obtain ⟨rfl, rfl⟩ := Phase.reading.inj equal
    by_cases own : counter = other
    · subst own
      rw [Function.update_self]
      exact ⟨seen, Nat.le_refl _⟩
    · rw [Function.update_of_ne own]
      exact tracks.reading _ cur phase fun member =>
        (List.mem_cons.mp member).elim own past
  · next nowNs' cur phase =>
    rw [phase] at sum seen
    dsimp only
    split
    · refine ⟨by simp, by simp, ?_, seen, by simp⟩
      rw [State.reported, List.map_append, List.sum_append]
      exact sum
    · exact ⟨by simp, by simp, sum, seen, by simp⟩
  · next phase => exact tracks

theorem proceed_counts (nowNs : Nat) (takes : Line → Bool) (state : State) :
    (proceed nowNs takes state).counts = state.counts := by
  unfold proceed
  split <;> try rfl
  dsimp only
  split <;> rfl

theorem counts_le_step (state : State) (input : Input) (counter : Counter) :
    state.counts counter ≤ (step state input).counts counter := by
  cases input with
  | inc other =>
    simp only [step]
    by_cases own : counter = other
    · subst own
      rw [Function.update_self]
      exact Nat.le_succ _
    · rw [Function.update_of_ne own]
  | incDiffDropped | askStop => exact Nat.le_refl _
  | cannotOpen =>
    simp only [step]
    split <;> exact Nat.le_refl _
  | proceed nowNs takes => exact (congrFun (proceed_counts nowNs takes state) counter).ge

theorem tracks_step (tracks : Tracks counter base state) (input : Input) :
    Tracks counter base (step state input) := by
  cases input with
  | inc other => exact tracks.of_counts (counts_le_step state (.inc other) counter)
  | incDiffDropped | askStop =>
    exact ⟨tracks.opened, tracks.primed, tracks.sum, tracks.seen, tracks.reading⟩
  | cannotOpen =>
    simp only [step]
    split
    · next phase => exact absurd phase tracks.opened
    all_goals exact tracks
  | proceed nowNs takes => exact tracks_proceed tracks nowNs takes

/-- The value that the lines are about never goes back. -/
theorem read_le_proceed (tracks : Tracks counter base state) (nowNs : Nat)
    (takes : Line → Bool) : state.read counter ≤ (proceed nowNs takes state).read counter := by
  unfold proceed
  split
  · next phase => exact absurd phase tracks.opened
  · next phase => simp [State.read, phase]
  · next other left phase =>
    have fresh := tracks.primed _ phase
    have apart : counter ≠ other := by
      rintro rfl
      exact fresh List.mem_cons_self
    simp [State.read, phase, Function.update_of_ne apart]
  · next phase =>
    by_cases stopped : state.stop = true <;> simp [State.read, phase, stopped]
  · next phase => simp [State.read, phase]
  · next cur phase =>
    simpa [State.read, phase] using (tracks.reading [] cur phase List.not_mem_nil).1
  · next other left cur phase => simp [State.read, phase]
  · next nowNs' cur phase =>
    dsimp only
    split <;> simp [State.read, phase]
  · exact Nat.le_refl _

/-- The round that is under way will take a number into account. -/
def State.Awaits (state : State) (counter : Counter) (before : Nat) : Prop :=
  match state.phase with
  | .sleeping => True
  | .reading left cur => counter ∈ left ∨ before ≤ cur counter
  | .opening | .priming _ | .testing | .dropped _ _ | .ended => False

theorem covered_proceed (tracks : Tracks counter base state)
    (counted : before ≤ state.counts counter) (nowNs : Nat) (takes : Line → Bool)
    (covered : before ≤ state.read counter ∨ state.Awaits counter before) :
    before ≤ (proceed nowNs takes state).read counter ∨
      (proceed nowNs takes state).Awaits counter before := by
  rcases covered with read | awaits
  · exact .inl (Nat.le_trans read (read_le_proceed tracks nowNs takes))
  · unfold State.Awaits at awaits
    split at awaits
    · next phase =>
      right
      simp only [proceed, phase, State.Awaits]
      exact .inl counter.mem_all
    · next left cur phase =>
      cases left with
      | nil =>
        left
        simpa [proceed, phase, State.read] using awaits
      | cons other left =>
        right
        simp only [proceed, phase, State.Awaits]
        by_cases own : counter = other
        · subst own
          rw [Function.update_self]
          exact .inr counted
        · rw [Function.update_of_ne own]
          exact awaits.imp_left fun member => (List.mem_cons.mp member).resolve_left own
    all_goals exact awaits.elim

/-- Only a step of the thread changes what it has read and what it is about to. -/
theorem covered_step (tracks : Tracks counter base state)
    (counted : before ≤ state.counts counter) (input : Input)
    (covered : before ≤ state.read counter ∨ state.Awaits counter before) :
    before ≤ (step state input).read counter ∨ (step state input).Awaits counter before := by
  cases input with
  | inc _ | incDiffDropped | askStop => exact covered
  | cannotOpen =>
    simp only [step]
    split
    · next phase => exact absurd phase tracks.opened
    all_goals exact covered
  | proceed nowNs takes => exact covered_proceed tracks counted nowNs takes covered

theorem read_le_step (tracks : Tracks counter base state) (input : Input) :
    state.read counter ≤ (step state input).read counter := by
  cases input with
  | inc _ | incDiffDropped | askStop => exact Nat.le_refl _
  | cannotOpen =>
    simp only [step]
    split
    · next phase => exact absurd phase tracks.opened
    all_goals exact Nat.le_refl _
  | proceed nowNs takes => exact read_le_proceed tracks nowNs takes

end Steps

/-! ## Runs -/

section Runs

variable {counter : Counter} {base : Nat} {past : List Input}

theorem tracks_run (tracks : Tracks counter base (run past)) (later : List Input) :
    Tracks counter base (run (past ++ later)) := by
  induction later using List.reverseRecOn with
  | nil => rwa [List.append_nil]
  | append_singleton later input ih =>
    rw [← List.append_assoc, run_concat]
    exact tracks_step ih input

theorem counts_le_run (past later : List Input) (counter : Counter) :
    (run past).counts counter ≤ (run (past ++ later)).counts counter := by
  induction later using List.reverseRecOn with
  | nil => rw [List.append_nil]
  | append_singleton later input ih =>
    rw [← List.append_assoc, run_concat]
    exact Nat.le_trans ih (counts_le_step _ input counter)

theorem read_le_run (tracks : Tracks counter base (run past)) (later : List Input) :
    (run past).read counter ≤ (run (past ++ later)).read counter := by
  induction later using List.reverseRecOn with
  | nil => rw [List.append_nil]
  | append_singleton later input ih =>
    rw [← List.append_assoc, run_concat]
    exact Nat.le_trans ih (read_le_step (tracks_run tracks later) input)

/-- What was counted when a round began is read in this round or was read before. -/
theorem covered_run (tracks : Tracks counter base (run past))
    (asleep : (run past).phase = .sleeping) (later : List Input) :
    (run past).counts counter ≤ (run (past ++ later)).read counter ∨
      (run (past ++ later)).Awaits counter ((run past).counts counter) := by
  induction later using List.reverseRecOn with
  | nil =>
    right
    rw [List.append_nil, State.Awaits, asleep]
    exact trivial
  | append_singleton later input ih =>
    rw [← List.append_assoc, run_concat]
    exact covered_step (tracks_run tracks later) (counts_le_run past later counter) input ih

/-- Until the thread has read all counters for the first time it has written nothing, and it
reads each of them once. -/
theorem priming_run (inputs : List Input) :
    ((run inputs).phase = .opening → (run inputs).lines = []) ∧
    ∀ left, (run inputs).phase = .priming left →
      (run inputs).lines = [] ∧ left <:+ Counter.all := by
  induction inputs using List.reverseRecOn with
  | nil => exact ⟨fun _ => rfl, by rintro left ⟨⟩⟩
  | append_singleton past input ih =>
    rw [run_concat]
    cases input with
    | inc _ | incDiffDropped | askStop => exact ih
    | cannotOpen =>
      simp only [step]
      split
      · exact ⟨by rintro ⟨⟩, by rintro left ⟨⟩⟩
      all_goals exact ih
    | proceed nowNs takes =>
      simp only [step]
      unfold proceed
      split
      · next phase =>
        refine ⟨by rintro ⟨⟩, fun left equal => ⟨ih.1 phase, ?_⟩⟩
        obtain rfl := Phase.priming.inj equal
        exact List.suffix_refl _
      · exact ⟨by rintro ⟨⟩, by rintro left ⟨⟩⟩
      · next other left phase =>
        obtain ⟨quiet, rest⟩ := ih.2 _ phase
        refine ⟨by rintro ⟨⟩, fun left' equal => ⟨quiet, ?_⟩⟩
        rw [← Phase.priming.inj equal]
        exact (List.suffix_cons other left).trans rest
      · next phase =>
        by_cases stopped : (run past).stop = true
        · simp only [if_pos stopped]
          exact ⟨by rintro ⟨⟩, by rintro left ⟨⟩⟩
        · simp only [if_neg stopped]
          exact ⟨by rintro ⟨⟩, by rintro left ⟨⟩⟩
      · exact ⟨by rintro ⟨⟩, by rintro left ⟨⟩⟩
      · exact ⟨by rintro ⟨⟩, by rintro left ⟨⟩⟩
      · exact ⟨by rintro ⟨⟩, by rintro left ⟨⟩⟩
      · dsimp only
        split <;> exact ⟨by rintro ⟨⟩, by rintro left ⟨⟩⟩
      · next phase => exact ⟨by simp [phase], by simp [phase]⟩

/-- A counter is tracked from its first reading on. -/
theorem tracks_first {left : List Counter} (reads : (run past).phase = .priming (counter :: left))
    (nowNs : Nat) (takes : Line → Bool) :
    Tracks counter ((run past).counts counter) (run (past ++ [.proceed nowNs takes])) := by
  obtain ⟨quiet, rest⟩ := (priming_run past).2 _ reads
  have fresh := (List.nodup_cons.mp (rest.sublist.nodup Counter.nodup_all)).1
  rw [run_concat]
  simp only [step, proceed, reads]
  refine ⟨by simp, ?_, ?_, ?_, by simp⟩
  · rintro left' equal
    rwa [← Phase.priming.inj equal]
  · simp [State.reported, State.read, quiet]
  · simp [State.read]

end Runs

/-- **The file accounts for the counters.** Its lines never say more of a counter than was
counted since the counter was first read, and when a round is over they say at least what was
counted when the round began, but for what was in lines that the file did not take. -/
theorem anomalies_accounted (counter : Counter) (first : List Input) (left : List Counter)
    (reads : (run first).phase = .priming (counter :: left)) (nowNs : Nat) (takes : Line → Bool) :
    (∀ later, (run first).counts counter +
        sumOf (Line.growth counter) (run (first ++ [.proceed nowNs takes] ++ later)).written ≤
      (run (first ++ [.proceed nowNs takes] ++ later)).counts counter) ∧
    ∀ earlier round later,
      (run (first ++ [.proceed nowNs takes] ++ earlier)).phase = .sleeping →
      (run (first ++ [.proceed nowNs takes] ++ earlier ++ round)).phase = .testing →
      let final := run (first ++ [.proceed nowNs takes] ++ earlier ++ round ++ later)
      (run (first ++ [.proceed nowNs takes] ++ earlier)).counts counter ≤
        (run first).counts counter + sumOf (Line.growth counter) final.written +
          sumOf (Line.growth counter) final.lost := by
  have tracks := tracks_first reads nowNs takes
  constructor
  · intro later
    have sum := (tracks_run tracks later).sum
    have seen := (tracks_run tracks later).seen
    rw [State.reported, ← sumOf_written_add_lost] at sum
    omega
  · intro earlier round later asleep ended
    dsimp only
    have tracks' := tracks_run tracks earlier
    have covered := covered_run tracks' asleep round
    rw [State.Awaits, ended] at covered
    have read := covered.resolve_right id
    have kept := read_le_run (tracks_run tracks' round) later
    have sum := (tracks_run (tracks_run tracks' round) later).sum
    rw [State.reported, ← sumOf_written_add_lost] at sum
    omega

def goOn (steps : Nat) (takes : Line → Bool) : List Input :=
  List.replicate steps (.proceed 0 takes)

/-- A failure before the first reading. -/
def failedOnce : List Input := .inc .ysChannelFull :: goOn 1 fun _ => true

/-- Two failures before a round, whose lines the file does not take, and one failure and one
dropped record after it. -/
def failedMore : List Input :=
  goOn 10 (fun _ => true) ++ [.inc .ysChannelFull, .inc .ysChannelFull] ++
    goOn 12 (fun _ => false) ++ [.inc .ysChannelFull, .incDiffDropped] ++ goOn 1 fun _ => true

/-- Of four failures, one was counted before the first reading, two are lost and one is in the
file. -/
theorem anomalies_accounted_sample :
    let final := run (failedOnce ++ [.proceed 0 fun _ => true] ++ failedMore ++
      goOn 12 (fun _ => true) ++ [])
    4 ≤ 1 + sumOf (Line.growth .ysChannelFull) final.written +
        sumOf (Line.growth .ysChannelFull) final.lost ∧
      sumOf (Line.growth .ysChannelFull) final.written = 1 ∧
      sumOf (Line.growth .ysChannelFull) final.lost = 2 :=
  ⟨(anomalies_accounted .ysChannelFull failedOnce _ rfl 0 fun _ => true).2 failedMore
    (goOn 12 fun _ => true) [] rfl rfl, by decide +kernel, by decide +kernel⟩

/-! ## The dropped records -/

/-- The round that is under way will read the dropped records. -/
def State.AwaitsDrops (state : State) : Prop :=
  match state.phase with
  | .sleeping | .reading _ _ | .dropped _ _ => True
  | .opening | .priming _ | .testing | .ended => False

/-- What one step does to the dropped records. -/
structure DropsStep (before after : State) : Prop where
  said : before.reportedDrops = before.prevDiffDropped →
    after.reportedDrops = after.prevDiffDropped
  counted : before.diffDropped ≤ after.diffDropped
  remembered : before.prevDiffDropped ≤ after.prevDiffDropped
  seen : before.prevDiffDropped ≤ before.diffDropped → after.prevDiffDropped ≤ after.diffDropped
  awaits : before.AwaitsDrops → after.AwaitsDrops ∨ before.diffDropped ≤ after.prevDiffDropped

theorem dropsStep_of_same {before after : State} (lines : after.lines = before.lines)
    (counted : before.diffDropped ≤ after.diffDropped)
    (remembered : after.prevDiffDropped = before.prevDiffDropped)
    (awaits : before.AwaitsDrops → after.AwaitsDrops) : DropsStep before after where
  said := by rw [State.reportedDrops, State.reportedDrops, lines, remembered]; exact id
  counted := counted
  remembered := remembered.ge
  seen := by omega
  awaits inRound := .inl (awaits inRound)

theorem dropsStep_proceed (nowNs : Nat) (takes : Line → Bool) (state : State) :
    DropsStep state (proceed nowNs takes state) := by
  unfold proceed
  split
  · next phase => exact dropsStep_of_same rfl le_rfl rfl (by simp [State.AwaitsDrops, phase])
  · next phase => exact dropsStep_of_same rfl le_rfl rfl (by simp [State.AwaitsDrops, phase])
  · next phase => exact dropsStep_of_same rfl le_rfl rfl (by simp [State.AwaitsDrops, phase])
  · next phase => exact dropsStep_of_same rfl le_rfl rfl (by simp [State.AwaitsDrops, phase])
  · next phase => exact dropsStep_of_same rfl le_rfl rfl (by simp [State.AwaitsDrops])
  · next cur phase =>
    refine ⟨fun said => ?_, le_rfl, le_rfl, id, fun _ => .inl trivial⟩
    change ((state.lines ++ roundLines nowNs takes (deltasVs cur state.prev)).map
      fun line => line.1.drops).sum = state.prevDiffDropped
    rw [List.map_append, List.sum_append, sum_drops_roundLines]
    exact said
  · next phase => exact dropsStep_of_same rfl le_rfl rfl (by simp [State.AwaitsDrops])
  · next nowNs' cur phase =>
    dsimp only
    split
    · next grown =>
      refine ⟨fun said => ?_, le_rfl, grown.le, fun _ => le_rfl, fun _ => .inr le_rfl⟩
      rw [State.reportedDrops, List.map_append, List.sum_append]
      change state.reportedDrops + (state.diffDropped - state.prevDiffDropped + 0) =
        state.diffDropped
      omega
    · next same => exact ⟨id, le_rfl, le_rfl, id, fun _ => .inr (Nat.le_of_not_lt same)⟩
  · exact dropsStep_of_same rfl le_rfl rfl id

theorem dropsStep (state : State) (input : Input) : DropsStep state (step state input) := by
  cases input with
  | inc _ | askStop => exact dropsStep_of_same rfl le_rfl rfl id
  | incDiffDropped => exact dropsStep_of_same rfl (Nat.le_succ _) rfl id
  | cannotOpen =>
    simp only [step]
    split
    · next phase => exact dropsStep_of_same rfl le_rfl rfl (by simp [State.AwaitsDrops, phase])
    all_goals exact dropsStep_of_same rfl le_rfl rfl id
  | proceed nowNs takes => exact dropsStep_proceed nowNs takes state

theorem drops_run (inputs : List Input) :
    (run inputs).reportedDrops = (run inputs).prevDiffDropped ∧
      (run inputs).prevDiffDropped ≤ (run inputs).diffDropped := by
  induction inputs using List.reverseRecOn with
  | nil => exact ⟨rfl, le_rfl⟩
  | append_singleton past input ih =>
    have does := dropsStep (run past) input
    rw [run_concat]
    exact ⟨does.said ih.1, does.seen ih.2⟩

/-- What was dropped when a round began is remembered when the round is over. -/
theorem drops_covered (past later : List Input) (asleep : (run past).phase = .sleeping) :
    (run past).diffDropped ≤ (run (past ++ later)).diffDropped ∧
      ((run (past ++ later)).AwaitsDrops ∨
        (run past).diffDropped ≤ (run (past ++ later)).prevDiffDropped) := by
  induction later using List.reverseRecOn with
  | nil =>
    rw [List.append_nil]
    refine ⟨le_rfl, .inl ?_⟩
    rw [State.AwaitsDrops, asleep]
    exact trivial
  | append_singleton later input ih =>
    have does := dropsStep (run (past ++ later)) input
    rw [← List.append_assoc, run_concat]
    refine ⟨ih.1.trans does.counted, ?_⟩
    rcases ih.2 with awaits | remembered
    · exact (does.awaits awaits).imp_right ih.1.trans
    · exact .inr (remembered.trans does.remembered)

/-- **The file accounts for the records that were dropped**, from the start of the run on, but
for what was in lines that the file did not take. -/
theorem drops_accounted (past : List Input) :
    sumOf Line.drops (run past).written ≤ (run past).diffDropped ∧
    ∀ round later, (run past).phase = .sleeping → (run (past ++ round)).phase = .testing →
      (run past).diffDropped ≤ sumOf Line.drops (run (past ++ round ++ later)).written +
        sumOf Line.drops (run (past ++ round ++ later)).lost := by
  have all : ∀ inputs, sumOf Line.drops (run inputs).written +
      sumOf Line.drops (run inputs).lost = (run inputs).prevDiffDropped := fun inputs =>
    (sumOf_written_add_lost Line.drops (run inputs)).trans (drops_run inputs).1
  refine ⟨(Nat.le_add_right ..).trans ((all past).trans_le (drops_run past).2),
    fun round later asleep ended => ?_⟩
  have covered := (drops_covered past round asleep).2
  rw [State.AwaitsDrops, ended] at covered
  rw [all]
  refine (covered.resolve_left id).trans ?_
  clear covered ended
  induction later using List.reverseRecOn with
  | nil => rw [List.append_nil]
  | append_singleton later input ih =>
    rw [← List.append_assoc, run_concat]
    exact ih.trans (dropsStep _ input).remembered

/-- A record is dropped before the file is opened, and the file takes the line about it. -/
def droppedOnce : List Input := .incDiffDropped :: goOn 25 fun _ => true

/-- Another one is dropped during a round, and the file takes no line about it. -/
def droppedAgain : List Input :=
  goOn 5 (fun _ => false) ++ .incDiffDropped :: goOn 7 fun _ => false

theorem drops_accounted_sample :
    let final := run (droppedOnce ++ droppedAgain ++ [])
    1 ≤ sumOf Line.drops final.written + sumOf Line.drops final.lost ∧
      sumOf Line.drops final.written = 1 ∧ sumOf Line.drops final.lost = 1 :=
  ⟨(drops_accounted droppedOnce).2 droppedAgain [] rfl rfl, by decide +kernel, by decide +kernel⟩

end SenderAnalysis.EntryComparator.Anomalies

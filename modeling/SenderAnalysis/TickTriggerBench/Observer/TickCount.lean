import SenderAnalysis.TickTriggerBench.Observer.SlotViews

/-!
# Ticks of a valid stream

A slot is delivered as a valid stream when its new entries fall into ticks: entries that
hold 62,500 hashes together with the entry without transactions that closes them, where no
earlier entry without transactions has that count. The observer then counts the ticks of
the slot exactly, and sends for the ticks that the schedule names what the pool holds for
them, each once (`observed_ticks_exact`).
-/

set_option autoImplicit false

namespace SenderAnalysis.TickTriggerBench.Observer

variable {cfg : Config} {slot : Nat}

/-! ## Valid streams -/

/-- The hashes of entries. -/
def hashes (entries : List Moment) : Nat := (entries.map fun moment => moment.1.numHashes).sum

/-- After some hashes, none of the entries without transactions completes a tick. -/
def NoTickAfter : Nat → List Moment → Prop
  | _, [] => True
  | since, moment :: rest =>
      (moment.1.txCount = 0 → since + moment.1.numHashes ≠ hashesPerTick) ∧
        NoTickAfter (since + moment.1.numHashes) rest

instance : ∀ (since : Nat) (entries : List Moment), Decidable (NoTickAfter since entries)
  | _, [] => instDecidableTrue
  | since, moment :: rest =>
      have : Decidable (NoTickAfter (since + moment.1.numHashes) rest) :=
        instDecidableNoTickAfter (since + moment.1.numHashes) rest
      inferInstanceAs (Decidable (_ ∧ _))

/-- The entries of one tick, the last of which closes it. -/
structure TickSegment where
  body : List Moment
  close : Moment
  isTick : close.1.txCount = 0
  full : hashes body + close.1.numHashes = hashesPerTick
  noTick : NoTickAfter 0 body

def TickSegment.entries (segment : TickSegment) : List Moment := segment.body ++ [segment.close]

/-- At most 64 ticks, and the entries after the last of them. -/
structure PohStream where
  ticks : List TickSegment
  tail : List Moment
  few : ticks.length ≤ 64
  noTick : NoTickAfter 0 tail

def PohStream.entries (stream : PohStream) : List Moment :=
  stream.ticks.flatMap TickSegment.entries ++ stream.tail

/-! ## What a tick is answered with -/

/-- The event of a tick. -/
def tickEvent (slot : Nat) (number : Nat) (segment : TickSegment) : TickEvent where
  observedAt := segment.close.1.observedAt
  slot := slot
  tickIdx := UInt8.ofNat number
  numHashes := segment.close.1.numHashes

/-- The command for a tick: it is scheduled, and the pool holds a transaction for it when
its closing entry is handled. -/
def command (cfg : Config) (slot : Nat) (number : Nat) (segment : TickSegment) :
    Option SendCommand :=
  if cfg.schedule.contains (slot, UInt8.ofNat number) then
    (HashTable.get segment.close.2 (slot, UInt8.ofNat number)).map fun tx =>
      ⟨tx, slot, UInt8.ofNat number, segment.close.1.observedAt⟩
  else none

/-- The commands for ticks that are numbered from a number on. -/
def commands (cfg : Config) (slot : Nat) (number : Nat) (ticks : List TickSegment) :
    List SendCommand :=
  (ticks.zipIdx number).filterMap fun numbered => command cfg slot numbered.2 numbered.1

theorem commands_cons (cfg : Config) (slot number : Nat) (segment : TickSegment)
    (rest : List TickSegment) :
    commands cfg slot number (segment :: rest) =
      (command cfg slot number segment).toList ++ commands cfg slot (number + 1) rest := by
  rw [commands, List.zipIdx_cons, List.filterMap_cons]
  cases command cfg slot number segment <;> rfl

/-- What is given out for ticks that are numbered from a number on. -/
def answers (cfg : Config) (slot : Nat) (number : Nat) (ticks : List TickSegment) : List Output :=
  (ticks.zipIdx number).flatMap fun numbered =>
    .tick (tickEvent slot numbered.2 numbered.1) ::
      ((command cfg slot numbered.2 numbered.1).map Output.send).toList

theorem answers_cons (number : Nat) (segment : TickSegment) (rest : List TickSegment) :
    answers cfg slot number (segment :: rest) =
      .tick (tickEvent slot number segment) ::
        ((command cfg slot number segment).map Output.send).toList ++
          answers cfg slot (number + 1) rest := by
  rw [answers, List.zipIdx_cons, List.flatMap_cons]
  rfl

/-! ## Counting -/

/-- A slot has seen some ticks, and some hashes since the last of them. -/
structure At (state : SlotState) (ticks since : Nat) : Prop where
  tickIdx : state.tickIdx = UInt8.ofNat ticks
  hashCount : state.hashCount = min since (2 ^ 64 - 1)
  cumulative : state.cumulativeHashesInSlot = min (hashesPerTick * ticks + since) (2 ^ 64 - 1)

variable {state : SlotState} {ticks since : Nat}

theorem at_initial : At {} 0 0 := ⟨rfl, rfl, rfl⟩

theorem At.addHashes (counted : At state ticks since) (obs : EntryObservation) :
    At (Observer.addHashes state obs) ticks (since + obs.numHashes) where
  tickIdx := counted.tickIdx
  hashCount := by
    have sum : min (min since (2 ^ 64 - 1) + obs.numHashes) (2 ^ 64 - 1) =
        min (since + obs.numHashes) (2 ^ 64 - 1) := by omega
    rw [Observer.addHashes, counted.hashCount]
    exact sum
  cumulative := by
    have sum : min (min (hashesPerTick * ticks + since) (2 ^ 64 - 1) + obs.numHashes)
        (2 ^ 64 - 1) = min (hashesPerTick * ticks + (since + obs.numHashes)) (2 ^ 64 - 1) := by
      omega
    rw [Observer.addHashes, counted.cumulative]
    exact sum

/-- The saturated count is that of a tick exactly when the true one is. -/
theorem At.hashCount_iff (counted : At state ticks since) :
    state.hashCount = hashesPerTick ↔ since = hashesPerTick := by
  rw [counted.hashCount, hashesPerTick]
  omega

/-- An entry that closes no tick. -/
theorem deliver_noTick (cfg : Config) (counted : At state ticks since) {moment : Moment}
    (noTick : moment.1.txCount = 0 → since + moment.1.numHashes ≠ hashesPerTick) :
    At (deliver cfg state moment).1 ticks (since + moment.1.numHashes) ∧
      sent (deliver cfg state moment).2 = [] := by
  have added := counted.addHashes moment.1
  unfold deliver countNew
  dsimp only
  split
  · next bare =>
    rw [if_neg fun full => noTick bare (added.hashCount_iff.mp full)]
    exact ⟨added, rfl⟩
  · exact ⟨added, rfl⟩

theorem run_noTick (cfg : Config) {entries : List Moment} (counted : At state ticks since)
    (noTick : NoTickAfter since entries) :
    At (runAll (deliver cfg) state entries).1 ticks (since + hashes entries) ∧
      sent (runAll (deliver cfg) state entries).2 = [] := by
  induction entries generalizing state since with
  | nil => exact ⟨counted, rfl⟩
  | cons moment rest ih =>
    obtain ⟨counted', silent⟩ := deliver_noTick cfg counted noTick.1
    obtain ⟨last, silent'⟩ := ih counted' noTick.2
    have sum : since + hashes (moment :: rest) = since + moment.1.numHashes + hashes rest := by
      simp [hashes, Nat.add_assoc]
    rw [runAll_cons, sent_append, silent, silent', sum]
    exact ⟨last, rfl⟩

theorem saturatingSucc_ofNat {count : Nat} (small : count < 64) :
    saturatingSucc (UInt8.ofNat count) = UInt8.ofNat (count + 1) ∧
      ¬ (64 : UInt8) < UInt8.ofNat (count + 1) := by
  have below : ∀ count < 64, saturatingSucc (UInt8.ofNat count) = UInt8.ofNat (count + 1) ∧
      ¬ (64 : UInt8) < UInt8.ofNat (count + 1) := by decide
  exact below count small

theorem sent_fire (pool : TxPool) (tick : UInt8) (observedAt : Instant) :
    sent (fire cfg pool slot tick observedAt).2 =
      (((if cfg.schedule.contains (slot, tick) then
        (HashTable.get pool (slot, tick)).map fun tx => ⟨tx, slot, tick, observedAt⟩
        else none : Option SendCommand)).map Output.send).toList := by
  unfold fire TxPool.take
  split
  · cases HashTable.get pool (slot, tick) <;> rfl
  · rfl

/-- The entry that closes a tick. -/
theorem deliver_close (cfg : Config) (segment : TickSegment)
    (counted : At state ticks (hashes segment.body)) (own : segment.close.1.slot = slot)
    (few : ticks < 64) :
    At (deliver cfg state segment.close).1 (ticks + 1) 0 ∧
      sent (deliver cfg state segment.close).2 =
        .tick (tickEvent slot (ticks + 1) segment) ::
          ((command cfg slot (ticks + 1) segment).map Output.send).toList := by
  have added := counted.addHashes segment.close.1
  rw [segment.full] at added
  obtain ⟨next, small⟩ := saturatingSucc_ofNat few
  have bound : hashesPerTick * ticks + hashesPerTick < 2 ^ 64 - 1 := by
    rw [hashesPerTick]
    omega
  unfold deliver countNew
  dsimp only
  rw [if_pos segment.isTick, if_pos (added.hashCount_iff.mpr rfl)]
  unfold countTick
  dsimp only
  rw [added.tickIdx, next, if_neg small]
  refine ⟨⟨rfl, rfl, ?_⟩, ?_⟩
  · dsimp only
    rw [added.cumulative, Nat.mul_succ, Nat.add_zero]
  · dsimp only
    rw [sent_trySend, own, sent_fire]
    rfl

/-- The entries of one tick. -/
theorem run_segment (cfg : Config) (segment : TickSegment) (counted : At state ticks 0)
    (own : segment.close.1.slot = slot) (few : ticks < 64) :
    At (runAll (deliver cfg) state segment.entries).1 (ticks + 1) 0 ∧
      sent (runAll (deliver cfg) state segment.entries).2 =
        .tick (tickEvent slot (ticks + 1) segment) ::
          ((command cfg slot (ticks + 1) segment).map Output.send).toList := by
  obtain ⟨before, silent⟩ := run_noTick cfg counted segment.noTick
  rw [Nat.zero_add] at before
  obtain ⟨closed, answered⟩ := deliver_close cfg segment before own few
  rw [TickSegment.entries, runAll_concat, sent_append, silent, List.nil_append]
  exact ⟨closed, answered⟩

/-- The entries of ticks, one after the other. -/
theorem run_segments (cfg : Config) {segments : List TickSegment} (counted : At state ticks 0)
    (own : ∀ segment ∈ segments, segment.close.1.slot = slot)
    (few : ticks + segments.length ≤ 64) :
    At (runAll (deliver cfg) state (segments.flatMap TickSegment.entries)).1
        (ticks + segments.length) 0 ∧
      sent (runAll (deliver cfg) state (segments.flatMap TickSegment.entries)).2 =
        answers cfg slot (ticks + 1) segments := by
  induction segments generalizing state ticks with
  | nil => exact ⟨counted, rfl⟩
  | cons segment rest ih =>
    rw [List.length_cons] at few
    obtain ⟨closed, answered⟩ := run_segment cfg segment counted
      (own segment (List.mem_cons_self ..)) (by omega)
    obtain ⟨last, more⟩ := ih closed
      (fun other member => own other (List.mem_cons_of_mem _ member)) (by omega)
    have count : ticks + (segment :: rest).length = ticks + 1 + rest.length := by
      rw [List.length_cons]
      omega
    rw [List.flatMap_cons, runAll_append, sent_append, answered, more, answers_cons, count]
    exact ⟨last, rfl⟩

/-! ## Exact ticks -/

def Output.tick? : Output → Option TickEvent
  | tick ev => some ev
  | send _ | matched _ => none

def Output.send? : Output → Option SendCommand
  | send cmd => some cmd
  | tick _ | matched _ => none

/-- The ticks of a slot that a run announces. -/
def ticksOf (cfg : Config) (slot : Nat) (inputs : List Input) : List TickEvent :=
  ((outputs cfg inputs).filter (OfSlot slot)).filterMap Output.tick?

/-- The commands of a run for ticks of a slot. -/
def commandsOf (cfg : Config) (slot : Nat) (inputs : List Input) : List SendCommand :=
  ((outputs cfg inputs).filter (OfSlot slot)).filterMap Output.send?

theorem answers_ticks (number : Nat) (ticks : List TickSegment) :
    (answers cfg slot number ticks).filterMap Output.tick? =
      (ticks.zipIdx number).map fun numbered => tickEvent slot numbered.2 numbered.1 := by
  induction ticks generalizing number with
  | nil => rfl
  | cons segment rest ih =>
    rw [answers_cons, List.filterMap_append, ih, List.zipIdx_cons, List.map_cons]
    cases command cfg slot number segment <;> rfl

theorem answers_commands (number : Nat) (ticks : List TickSegment) :
    (answers cfg slot number ticks).filterMap Output.send? = commands cfg slot number ticks := by
  induction ticks generalizing number with
  | nil => rfl
  | cons segment rest ih =>
    rw [answers_cons, List.filterMap_append, ih, commands_cons]
    cases command cfg slot number segment <;> rfl

theorem command_scheduleTick {number : Nat} {segment : TickSegment} {cmd : SendCommand}
    (commanded : command cfg slot number segment = some cmd) :
    cmd.scheduleTick = UInt8.ofNat number := by
  unfold command at commanded
  split at commanded
  · obtain ⟨_, _, rfl⟩ := Option.map_eq_some_iff.mp commanded
    rfl
  · cases commanded

/-- Ticks with different numbers up to 255 are commanded under different ticks. -/
theorem commands_nodup (cfg : Config) (slot number : Nat) (ticks : List TickSegment)
    (few : number + ticks.length ≤ 256) :
    ((commands cfg slot number ticks).map SendCommand.scheduleTick).Nodup := by
  induction ticks generalizing number with
  | nil => exact List.nodup_nil
  | cons segment rest ih =>
    rw [List.length_cons] at few
    have later := ih (number + 1) (by omega)
    rw [commands_cons]
    cases commanded : command cfg slot number segment with
    | none => exact later
    | some cmd =>
      refine List.nodup_cons.mpr ⟨fun again => ?_, later⟩
      obtain ⟨other, member, same⟩ := List.mem_map.mp again
      obtain ⟨⟨segment', number'⟩, listed, commanded'⟩ := List.mem_filterMap.mp member
      rw [command_scheduleTick commanded', command_scheduleTick commanded] at same
      obtain ⟨above, below, _⟩ := List.mem_zipIdx listed
      have numbers := congrArg UInt8.toNat same
      rw [UInt8.toNat_ofNat', UInt8.toNat_ofNat'] at numbers
      omega

/-- A slot that is not too far behind in a run was not in its beginning. -/
theorem NotBehind.prefix' {past rest : List Input} (notBehind : NotBehind slot (past ++ rest)) :
    NotBehind slot past := by
  intro before obs pending after split
  exact notBehind before obs pending (after ++ rest) (by simp [split])

theorem firstSlot_of_append {past rest : List Input}
    (notFirst : firstSlot (past ++ rest) ≠ some slot) :
    firstSlot past ≠ some slot := by
  intro opened
  refine notFirst ?_
  obtain ⟨obs, found, own⟩ := Option.map_eq_some_iff.mp opened
  unfold firstSlot observations
  rw [List.filterMap_append, List.head?_append]
  exact (congrArg _ (congrArg (Option.or · _) found)).trans (congrArg some own)

/-- The ticks of a stream that is delivered to a slot are closed in the slot. -/
theorem close_slot {cfg : Config} {inputs : List Input} {stream : PohStream}
    (valid : moments cfg slot inputs = stream.entries) {segment : TickSegment}
    (member : segment ∈ stream.ticks) : segment.close.1.slot = slot := by
  have among : segment.close ∈ stream.entries :=
    List.mem_append_left _ (List.mem_flatMap.mpr
      ⟨segment, member, List.mem_append_right _ (List.mem_singleton_self _)⟩)
  exact moments_slot (valid ▸ among)

/-- A slot that is delivered as a stream is answered with the ticks of the stream. -/
theorem outputs_stream (cfg : Config) {inputs : List Input}
    (notFirst : firstSlot inputs ≠ some slot) (notBehind : NotBehind slot inputs)
    (stream : PohStream) (valid : moments cfg slot inputs = stream.entries) :
    (outputs cfg inputs).filter (OfSlot slot) = answers cfg slot 1 stream.ticks := by
  obtain ⟨counted, answered⟩ := run_segments cfg at_initial
    (fun segment member => close_slot valid member) (by simpa using stream.few)
  obtain ⟨_, silent⟩ := run_noTick cfg counted stream.noTick
  have total := (@run_view cfg slot inputs notFirst notBehind).outputs
  rw [valid, PohStream.entries, runAll_append, sent_append, answered, silent,
    List.append_nil] at total
  exact total

/-- When an entry of a slot comes that is not too far behind, no entry is far ahead. -/
theorem NotBehind.near {past : List Input} {obs : EntryObservation}
    {pending : List Bool} (notBehind : NotBehind slot (past ++ [.observe obs pending]))
    (mine : obs.slot = slot) :
    ∀ earlier ∈ observations (past ++ [.observe obs pending]), earlier.slot ≤ slot + 200 := by
  intro earlier member
  rw [observations_concat] at member
  rcases List.mem_append.mp member with before | last
  · exact notBehind past obs pending [] rfl mine earlier before
  · have same : earlier = obs := by simpa [Input.observation?] using last
    rw [same, mine]
    exact Nat.le_add_right ..

/-- When the entry comes that closes a tick of a stream, the slot has seen this many ticks. -/
theorem state_at_tick (cfg : Config) {past : List Input} {obs : EntryObservation}
    {pending : List Bool}
    (notFirst : firstSlot (past ++ [.observe obs pending]) ≠ some slot)
    (notBehind : NotBehind slot (past ++ [.observe obs pending])) (mine : obs.slot = slot)
    {segments : List TickSegment}
    (own : ∀ segment ∈ segments, segment.close.1.slot = slot) (few : segments.length ≤ 64)
    (reached : moments cfg slot (past ++ [.observe obs pending]) =
      segments.flatMap TickSegment.entries) :
    ∃ state, (run cfg (past ++ [.observe obs pending])).1.slotState.get slot = some state ∧
      state.tickIdx = UInt8.ofNat segments.length ∧
        state.cumulativeHashesInSlot = 62500 * segments.length := by
  have held := (@run_view cfg slot _ notFirst notBehind).held (notBehind.near mine)
  have delivered' : obs.entryHash ∈ delivered cfg slot (past ++ [.observe obs pending]) := by
    rw [delivered, deliveries_concat_observe, if_pos mine, List.map_append]
    exact List.mem_append_right _ (List.mem_singleton_self _)
  rw [stateOf, if_neg (moments_ne_nil delivered'), reached] at held
  obtain ⟨counted, _⟩ := run_segments cfg at_initial own (by omega)
  rw [Nat.zero_add] at counted
  refine ⟨_, held, counted.tickIdx, counted.cumulative.trans ?_⟩
  rw [hashesPerTick]
  omega

/-- **The ticks of a slot that is delivered as a valid stream are numbered from one, at
62,500 hashes each, and those that the schedule names are sent when the pool holds a
transaction for them, each once.** Repeats, other slots, pruning and the other users of the
pool do not change it. -/
theorem observed_ticks_exact (cfg : Config) {inputs : List Input}
    (notFirst : firstSlot inputs ≠ some slot)
    (notBehind : NotBehind slot inputs) (stream : PohStream)
    (valid : moments cfg slot inputs = stream.entries) :
    ticksOf cfg slot inputs =
        (stream.ticks.zipIdx 1).map (fun numbered => tickEvent slot numbered.2 numbered.1) ∧
      commandsOf cfg slot inputs = commands cfg slot 1 stream.ticks ∧
      ((commandsOf cfg slot inputs).map SendCommand.scheduleTick).Nodup ∧
      ∀ past obs pending rest, inputs = past ++ .observe obs pending :: rest →
        obs.slot = slot → ∀ k ≤ stream.ticks.length,
        moments cfg slot (past ++ [.observe obs pending]) =
          (stream.ticks.take k).flatMap TickSegment.entries →
        ∃ state, (run cfg (past ++ [.observe obs pending])).1.slotState.get slot = some state ∧
          state.tickIdx = UInt8.ofNat k ∧ state.cumulativeHashesInSlot = 62500 * k := by
  have given := outputs_stream cfg notFirst notBehind stream valid
  have commanded : commandsOf cfg slot inputs = commands cfg slot 1 stream.ticks :=
    (congrArg _ given).trans (answers_commands 1 stream.ticks)
  have few := stream.few
  refine ⟨(congrArg _ given).trans (answers_ticks 1 stream.ticks), commanded, ?_, ?_⟩
  · rw [commanded]
    exact commands_nodup cfg slot 1 stream.ticks (by omega)
  · intro past obs pending rest split mine k within reached
    have split' : inputs = (past ++ [.observe obs pending]) ++ rest := by simp [split]
    have own : ∀ segment ∈ stream.ticks.take k, segment.close.1.slot = slot :=
      fun segment member => close_slot valid (List.mem_of_mem_take member)
    have count : (stream.ticks.take k).length = k := List.length_take_of_le within
    rw [split'] at notFirst notBehind
    have counted := state_at_tick cfg (firstSlot_of_append notFirst) notBehind.prefix' mine own
      (by omega) reached
    rwa [count] at counted

/-- Nothing is behind where no entry is far ahead. -/
theorem notBehind_of_near {inputs : List Input}
    (near : ∀ obs ∈ observations inputs, obs.slot ≤ slot + 200) : NotBehind slot inputs := by
  intro past obs pending rest split _ earlier member
  refine near earlier ?_
  rw [split, observations, List.filterMap_append]
  exact List.mem_append_left _ member

def sampleEntry (slot numHashes : Nat) (txCount : UInt32) (hash : UInt8) : EntryObservation where
  source := .shredStream
  observedAt := 0
  slot := slot
  entryIndex := 0
  numHashes := numHashes
  entryHash := Vector.replicate 32 hash
  txCount := txCount
  signatures := []
  firstShredAt := none
  leader := none

def sampleTx : PreSignedTx where
  serialized := []
  signature := Vector.replicate 64 0
  blockhash := Hash.default
  builtAt := 0

/-- One tick of slot 1000, after an entry of slot 999, with its first entry repeated. -/
def sampleInputs : List Input :=
  [.observe (sampleEntry 999 5 1 0) [], .insert 1000 1 sampleTx,
    .observe (sampleEntry 1000 30000 2 1) [], .observe (sampleEntry 1000 30000 2 1) [],
    .observe (sampleEntry 1000 32500 0 2) []]

def sampleStream : PohStream where
  ticks :=
    [{ body := [(sampleEntry 1000 30000 2 1, TxPool.insert .empty 1000 1 sampleTx)]
       close := (sampleEntry 1000 32500 0 2, TxPool.insert .empty 1000 1 sampleTx)
       isTick := by decide
       full := by decide
       noTick := by decide }]
  tail := []
  few := by decide
  noTick := by decide

theorem observed_ticks_exact_sample :
    ticksOf ⟨[(1000, 1)]⟩ 1000 sampleInputs = [⟨0, 1000, 1, 32500⟩] ∧
      commandsOf ⟨[(1000, 1)]⟩ 1000 sampleInputs = [⟨sampleTx, 1000, 1, 0⟩] := by
  obtain ⟨ticks, sends, _⟩ := @observed_ticks_exact 1000 ⟨[(1000, 1)]⟩ sampleInputs (by decide)
    (notBehind_of_near (by decide)) sampleStream rfl
  exact ⟨ticks.trans (by decide), sends.trans (by decide)⟩

end SenderAnalysis.TickTriggerBench.Observer

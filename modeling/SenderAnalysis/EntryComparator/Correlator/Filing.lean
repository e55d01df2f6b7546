import SenderAnalysis.EntryComparator.Correlator.Model

/-!
# What the correlator holds

Whatever a run receives, the correlator holds for a key only observations of that key,
each on the side of its source, and of one source only: a pair is written and forgotten at
once. So every output is the record of such observations (`outputs_origin`), and the
branch for an entry without observations is never reached.
-/

set_option autoImplicit false

namespace SenderAnalysis.EntryComparator.Correlator

/-! ## Observations filed under a key -/

/-- The observations held are observations of the key that were received, each on the
side of its source. -/
structure MatchState.Filed (received : EntryObservation → Prop) (key : EntryKey)
    (st : MatchState) : Prop where
  yellowstone : ∀ y, st.yellowstone = some y → received y ∧ y.source = .yellowstone ∧ keyOf y = key
  shredstream : ∀ s, st.shredstream = some s → received s ∧ s.source = .shredStream ∧ keyOf s = key

/-- There is some observation. -/
def MatchState.Occupied (st : MatchState) : Prop :=
  st.yellowstone.isSome ∨ st.shredstream.isSome

variable {received : EntryObservation → Prop} {key : EntryKey} {st : MatchState} {cfg : Config}

theorem MatchState.filed_vacant (now : Instant) :
    MatchState.Filed received key { insertedAt := now } :=
  ⟨fun _ absent => (by cases absent), fun _ absent => (by cases absent)⟩

theorem MatchState.Filed.note (filed : st.Filed received key) {obs : EntryObservation}
    (got : received obs) (own : keyOf obs = key) : (st.note obs).Filed received key := by
  unfold MatchState.note
  cases side : obs.source with
  | yellowstone =>
    refine ⟨fun y held => ?_, filed.shredstream⟩
    obtain rfl := Option.some.inj held
    exact ⟨got, side, own⟩
  | shredStream =>
    refine ⟨filed.yellowstone, fun s held => ?_⟩
    obtain rfl := Option.some.inj held
    exact ⟨got, side, own⟩

theorem MatchState.occupied_note (obs : EntryObservation) : (st.note obs).Occupied := by
  unfold MatchState.note MatchState.Occupied
  cases obs.source with
  | yellowstone => exact Or.inl rfl
  | shredStream => exact Or.inr rfl

theorem MatchState.note_insertedAt (obs : EntryObservation) :
    (st.note obs).insertedAt = st.insertedAt := by
  unfold MatchState.note
  cases obs.source <;> rfl

/-! ## Records -/

/-- An entry with an observation has a record. -/
theorem recordOf_occupied (cfg : Config) (occupied : st.Occupied) : (recordOf cfg st).isSome := by
  obtain ⟨_ | y, _ | s, _⟩ := st
  · simp [MatchState.Occupied] at occupied
  all_goals rfl

theorem emit_occupied (cfg : Config) (occupied : st.Occupied) :
    ∃ rec, recordOf cfg st = some rec ∧ emit cfg st = [.trySend (.record rec)] := by
  obtain ⟨rec, made⟩ := Option.isSome_iff_exists.mp (recordOf_occupied cfg occupied)
  exact ⟨rec, made, by simp [emit, made]⟩

/-! ## The map -/

/-- Every key's observations are filed under it, and one source is missing. -/
def FiledMap (received : EntryObservation → Prop) (map : MatchMap) : Prop :=
  ∀ key st, map.get key = some st →
    st.Filed received key ∧ st.Occupied ∧ st.paired = false

/-- What is given out is the record of received observations of one key. -/
def FromFiled (cfg : Config) (received : EntryObservation → Prop) (effect : CorrelatorEffect) :
    Prop :=
  ∃ key st rec, MatchState.Filed received key st ∧ st.Occupied ∧
    recordOf cfg st = some rec ∧ effect = .trySend (.record rec)

theorem filedMap_empty : FiledMap received .empty := by
  intro key st found
  simp at found

theorem FiledMap.remove {map : MatchMap} (filed : FiledMap received map) (key : EntryKey) :
    FiledMap received (map.remove key) := by
  intro other st found
  exact filed other st (HashTable.get_of_get_remove found)

theorem FiledMap.insert {map : MatchMap} (filed : FiledMap received map)
    (own : st.Filed received key) (occupied : st.Occupied) (single : st.paired = false) :
    FiledMap received (map.insert key st) := by
  intro other st' found
  rw [HashTable.get_insert] at found
  split at found
  · next same =>
    obtain rfl := Option.some.inj found
    exact same ▸ ⟨own, occupied, single⟩
  · exact filed other st' found

theorem fromFiled_emit (filed : st.Filed received key) (occupied : st.Occupied) :
    ∀ effect ∈ emit cfg st, FromFiled cfg received effect := by
  obtain ⟨rec, made, emitted⟩ := emit_occupied cfg occupied
  intro effect offered
  rw [emitted] at offered
  exact ⟨key, st, rec, filed, occupied, made, List.mem_singleton.mp offered⟩

/-! ## One turn -/

variable {map : MatchMap}

theorem FiledMap.entry (filed : FiledMap received map) (key : EntryKey) (now : Instant) :
    ((map.get key).getD { insertedAt := now }).Filed received key := by
  cases held : map.get key with
  | none => exact MatchState.filed_vacant now
  | some st => exact (filed key st held).1

theorem handle_filed (cfg : Config) (filed : FiledMap received map) {obs : EntryObservation}
    (got : received obs) (now : Instant) :
    FiledMap received (handle cfg map obs now).1 ∧
      ∀ effect ∈ (handle cfg map obs now).2, FromFiled cfg received effect := by
  have noted := (filed.entry (keyOf obs) now).note got rfl
  have occupied : (((map.get (keyOf obs)).getD { insertedAt := now }).note obs).Occupied :=
    MatchState.occupied_note obs
  unfold handle
  dsimp only
  split
  · exact ⟨filed.remove _, fromFiled_emit noted occupied⟩
  · next waits => exact ⟨filed.insert noted occupied (by simpa using waits), by simp⟩

theorem expire_filed (cfg : Config) (filed : FiledMap received map) (key : EntryKey) :
    FiledMap received (expire cfg map key).1 ∧
      ∀ effect ∈ (expire cfg map key).2, FromFiled cfg received effect := by
  unfold expire
  split
  · exact ⟨filed, by simp⟩
  · next st found =>
    obtain ⟨own, occupied, _⟩ := filed key st found
    exact ⟨filed.remove key, fromFiled_emit own occupied⟩

theorem sweep_filed (cfg : Config) (filed : FiledMap received map) (deadline : Duration)
    (now : Instant) :
    FiledMap received (sweep cfg deadline map now).1 ∧
      ∀ effect ∈ (sweep cfg deadline map now).2, FromFiled cfg received effect :=
  @runAll_outputs _ _ _ (expire cfg) (FiledMap received) (FromFiled cfg received)
    (stale deadline map now) (fun _ filed key _ => expire_filed cfg filed key) _ filed

theorem step_filed {corr : State} (filed : FiledMap received corr.map) {turn : Turn}
    (got : ∀ arrival ∈ turn.received, received arrival.1) :
    FiledMap received (step cfg corr turn).1.map ∧
      ∀ effect ∈ (step cfg corr turn).2, FromFiled cfg received effect := by
  have handled : FiledMap received (receive cfg corr.map turn.received).1 ∧
      ∀ effect ∈ (receive cfg corr.map turn.received).2, FromFiled cfg received effect := by
    cases arrived : turn.received with
    | none => exact ⟨filed, by simp [receive]⟩
    | some arrival => exact handle_filed cfg filed (got arrival arrived) arrival.2
  unfold step
  dsimp only
  split
  · obtain ⟨swept, more⟩ := sweep_filed cfg handled.1 cfg.deadline turn.now
    exact ⟨swept, fun effect offered =>
      (List.mem_append.mp offered).elim (handled.2 effect) (more effect)⟩
  · exact handled

/-! ## Runs -/

/-- The observations that a run receives. -/
def observations (turns : List Turn) : List EntryObservation :=
  turns.filterMap fun turn => turn.received.map Prod.fst

theorem mem_observations {turns : List Turn} {turn : Turn} (member : turn ∈ turns)
    {arrival : EntryObservation × Instant} (arrived : arrival ∈ turn.received) :
    arrival.1 ∈ observations turns :=
  List.mem_filterMap.mpr ⟨turn, member, by rw [Option.mem_def.mp arrived]; rfl⟩

theorem runTurns_filed (cfg : Config) (startedAt : Instant) (turns : List Turn) :
    FiledMap (· ∈ observations turns) (runTurns cfg startedAt turns).1.map ∧
      ∀ effect ∈ (runTurns cfg startedAt turns).2,
        FromFiled cfg (· ∈ observations turns) effect := by
  refine @runAll_outputs _ _ _ (step cfg) (fun corr => FiledMap (· ∈ observations turns) corr.map)
    (FromFiled cfg (· ∈ observations turns)) turns ?_ { lastSweep := startedAt } filedMap_empty
  intro corr filed turn member
  exact step_filed filed fun arrival arrived => mem_observations member arrived

/-- **Everything a run gives out is the record of observations of one key that it
received, each on the side of its source.** -/
theorem outputs_origin {cfg : Config} {startedAt : Instant} {turns : List Turn}
    {endedAt : Instant} {output : Output} (offered : output ∈ outputs cfg startedAt turns endedAt) :
    ∃ key st rec, MatchState.Filed (· ∈ observations turns) key st ∧ st.Occupied ∧
      recordOf cfg st = some rec ∧ output = .record rec := by
  obtain ⟨filed, early⟩ := runTurns_filed cfg startedAt turns
  obtain ⟨_, late⟩ := sweep_filed cfg filed 0 endedAt
  have from' : FromFiled cfg (· ∈ observations turns) (.trySend output) :=
    (List.mem_append.mp (mem_sent.mp offered)).elim (early _) (late _)
  obtain ⟨key, st, rec, own, occupied, made, same⟩ := from'
  exact ⟨key, st, rec, own, occupied, made, Effect.trySend.inj same⟩

theorem unreachable_not_output (cfg : Config) (startedAt : Instant) (turns : List Turn)
    (endedAt : Instant) : .unreachable ∉ outputs cfg startedAt turns endedAt := by
  intro reached
  obtain ⟨_, _, _, _, _, _, same⟩ := outputs_origin reached
  cases same

/-- Every record of a run is the record of observations it received. -/
theorem records_origin {cfg : Config} {startedAt : Instant} {turns : List Turn}
    {endedAt : Instant} {rec : DiffRecord} (written : rec ∈ records cfg startedAt turns endedAt) :
    ∃ key st, MatchState.Filed (· ∈ observations turns) key st ∧ st.Occupied ∧
      recordOf cfg st = some rec := by
  obtain ⟨output, offered, read⟩ := List.mem_filterMap.mp written
  obtain ⟨key, st, _, own, occupied, made, rfl⟩ := outputs_origin offered
  obtain rfl := Option.some.inj read
  exact ⟨key, st, own, occupied, made⟩

end SenderAnalysis.EntryComparator.Correlator

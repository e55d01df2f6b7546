import SenderAnalysis.EntryComparator.Correlator.Filing

/-!
# The correlator, seen from one key

What the correlator does with one key depends on the key's own observations and on the
times of the sweeps. `KeyView` is this part of it: the arrivals of the key since it was
opened. They are closed as one period when both sources have delivered the entry, when
they are overdue at a sweep, and at the end. `records_periods` connects the two: the
records of a key are the records of its periods.
-/

set_option autoImplicit false

namespace SenderAnalysis.EntryComparator.Correlator

/-- An observation, with the clock when it is handled. -/
abbrev Arrival := EntryObservation × Instant

/-! ## What the arrivals of a key amount to -/

/-- The source has delivered the entry. -/
def Delivered (source : SourceKind) (arrivals : List Arrival) : Prop :=
  ∃ arrival ∈ arrivals, arrival.1.source = source

instance (source : SourceKind) (arrivals : List Arrival) : Decidable (Delivered source arrivals) :=
  inferInstanceAs (Decidable (∃ _ ∈ _, _))

/-- Both sources have delivered the entry. -/
def Complete (arrivals : List Arrival) : Prop :=
  Delivered .yellowstone arrivals ∧ Delivered .shredStream arrivals

instance (arrivals : List Arrival) : Decidable (Complete arrivals) :=
  inferInstanceAs (Decidable (_ ∧ _))

/-- The first observation of a source. -/
def firstOf (source : SourceKind) (arrivals : List Arrival) : Option EntryObservation :=
  (arrivals.find? fun arrival => arrival.1.source = source).map Prod.fst

/-- The last observation of a source. -/
def lastOf (source : SourceKind) (arrivals : List Arrival) : Option EntryObservation :=
  firstOf source arrivals.reverse

/-- What a key holds after arrivals. -/
def stateOf : List Arrival → Option MatchState
  | [] => none
  | first :: rest =>
      some ((first :: rest).foldl (fun st arrival => st.note arrival.1) { insertedAt := first.2 })

/-- The record of a period. -/
def recordFor (cfg : Config) (arrivals : List Arrival) : Option DiffRecord :=
  (stateOf arrivals).bind (recordOf cfg)

theorem stateOf_concat (past : List Arrival) (arrival : Arrival) :
    stateOf (past ++ [arrival]) =
      some (((stateOf past).getD { insertedAt := arrival.2 }).note arrival.1) := by
  cases past with
  | nil => rfl
  | cons first rest =>
    rw [List.cons_append, stateOf, ← List.cons_append, List.foldl_concat]
    rfl

theorem lastOf_concat (source : SourceKind) (past : List Arrival) (arrival : Arrival) :
    lastOf source (past ++ [arrival]) =
      if arrival.1.source = source then some arrival.1 else lastOf source past := by
  simp only [lastOf, firstOf, List.reverse_concat, List.find?_cons]
  split <;> simp_all

theorem lastOf_isSome {source : SourceKind} {arrivals : List Arrival} :
    (lastOf source arrivals).isSome ↔ Delivered source arrivals := by
  simp [lastOf, firstOf, Delivered]

/-- A key holds the last observation of each source, under the time of the first. -/
structure Holds (arrivals : List Arrival) (st : MatchState) : Prop where
  yellowstone : st.yellowstone = lastOf .yellowstone arrivals
  shredstream : st.shredstream = lastOf .shredStream arrivals
  insertedAt : arrivals.head?.map Prod.snd = some st.insertedAt

theorem Holds.note {past : List Arrival} {st : MatchState} (arrival : Arrival)
    (held : Holds past st) : Holds (past ++ [arrival]) (st.note arrival.1) := by
  obtain ⟨ys, ss, opened⟩ := held
  have opened' : (past ++ [arrival]).head?.map Prod.snd = some (st.note arrival.1).insertedAt := by
    cases past with
    | nil => simp at opened
    | cons first rest => simpa [MatchState.note_insertedAt] using opened
  refine ⟨?_, ?_, opened'⟩ <;> rw [lastOf_concat] <;> unfold MatchState.note <;>
    cases arrival.1.source <;> simp [ys, ss]

theorem holds_single (arrival : Arrival) :
    Holds [arrival] (MatchState.note { insertedAt := arrival.2 } arrival.1) := by
  unfold MatchState.note
  cases side : arrival.1.source <;> constructor <;> simp [lastOf, firstOf, side]

theorem stateOf_holds {arrivals : List Arrival} (nonempty : arrivals ≠ []) :
    ∃ st, stateOf arrivals = some st ∧ Holds arrivals st := by
  induction arrivals using List.reverseRecOn with
  | nil => exact absurd rfl nonempty
  | append_singleton past arrival ih =>
    rw [stateOf_concat]
    refine ⟨_, rfl, ?_⟩
    by_cases vacant : past = []
    · subst vacant
      exact holds_single arrival
    · obtain ⟨st, held, holds⟩ := ih vacant
      rw [held]
      exact holds.note arrival

theorem Holds.paired {arrivals : List Arrival} {st : MatchState} (holds : Holds arrivals st) :
    st.paired = true ↔ Complete arrivals := by
  rw [MatchState.paired, Bool.and_eq_true, holds.yellowstone, holds.shredstream, lastOf_isSome,
    lastOf_isSome, Complete]

theorem Holds.occupied {arrivals : List Arrival} {st : MatchState} (nonempty : arrivals ≠ [])
    (holds : Holds arrivals st) : st.Occupied := by
  obtain ⟨first, rest, rfl⟩ := List.exists_cons_of_ne_nil nonempty
  unfold MatchState.Occupied
  rw [holds.yellowstone, holds.shredstream, lastOf_isSome, lastOf_isSome]
  cases side : first.1.source with
  | yellowstone => exact Or.inl ⟨first, List.mem_cons_self .., side⟩
  | shredStream => exact Or.inr ⟨first, List.mem_cons_self .., side⟩

theorem Holds.filed {arrivals : List Arrival} {st : MatchState} {key : EntryKey}
    (own : ∀ arrival ∈ arrivals, keyOf arrival.1 = key) (holds : Holds arrivals st) :
    st.Filed (fun _ => True) key := by
  have side : ∀ source obs, lastOf source arrivals = some obs →
      True ∧ obs.source = source ∧ keyOf obs = key := by
    intro source obs found
    obtain ⟨arrival, met, rfl⟩ := Option.map_eq_some_iff.mp found
    have member := List.mem_reverse.mp (List.mem_of_find?_eq_some met)
    exact ⟨trivial, by simpa using List.find?_some met, own arrival member⟩
  exact ⟨fun y held => side _ y (holds.yellowstone ▸ held),
    fun s held => side _ s (holds.shredstream ▸ held)⟩

/-! ## The view of one key -/

/-- The arrivals of a key since it was opened, and the time of the last sweep. -/
structure KeyView where
  arrivals : List Arrival := []
  lastSweep : Instant

/-- The first of the arrivals has waited for the deadline. -/
def Overdue (deadline : Duration) (arrivals : List Arrival) (now : Instant) : Prop :=
  ∃ first ∈ arrivals.head?, deadline ≤ saturatingDurationSince now first.2

instance (deadline : Duration) (arrivals : List Arrival) (now : Instant) :
    Decidable (Overdue deadline arrivals now) :=
  inferInstanceAs (Decidable (∃ _ ∈ arrivals.head?, _))

/-- An observation of the key joins its arrivals, and closes them when it completes them. -/
def KeyView.note (key : EntryKey) (view : KeyView) :
    Option Arrival → KeyView × List (List Arrival)
  | some arrival =>
      if keyOf arrival.1 = key then
        if Complete (view.arrivals ++ [arrival]) then
          ({ view with arrivals := [] }, [view.arrivals ++ [arrival]])
        else ({ view with arrivals := view.arrivals ++ [arrival] }, [])
      else (view, [])
  | none => (view, [])

/-- A sweep closes overdue arrivals. -/
def KeyView.close (deadline : Duration) (view : KeyView) (now : Instant) :
    KeyView × List (List Arrival) :=
  if Overdue deadline view.arrivals now then ({ view with arrivals := [] }, [view.arrivals])
  else (view, [])

def KeyView.step (deadline : Duration) (key : EntryKey) (view : KeyView) (turn : Turn) :
    KeyView × List (List Arrival) :=
  let noted := view.note key turn.received
  if SweepDue view.lastSweep turn.now then
    let closed := noted.1.close deadline turn.now
    ({ closed.1 with lastSweep := turn.now }, noted.2 ++ closed.2)
  else noted

/-- The view of a key after turns, and the periods closed by then. -/
def viewAll (deadline : Duration) (key : EntryKey) (startedAt : Instant) (turns : List Turn) :
    KeyView × List (List Arrival) :=
  runAll (KeyView.step deadline key) { lastSweep := startedAt } turns

/-- The arrivals of a key, cut where the key was closed; the last period is closed at the
end. -/
def periods (deadline : Duration) (key : EntryKey) (startedAt : Instant) (turns : List Turn)
    (endedAt : Instant) : List (List Arrival) :=
  (viewAll deadline key startedAt turns).2 ++
    ((viewAll deadline key startedAt turns).1.close 0 endedAt).2

theorem viewAll_concat (deadline : Duration) (key : EntryKey) (startedAt : Instant)
    (past : List Turn) (turn : Turn) :
    viewAll deadline key startedAt (past ++ [turn]) =
      (((viewAll deadline key startedAt past).1.step deadline key turn).1,
        (viewAll deadline key startedAt past).2 ++
          ((viewAll deadline key startedAt past).1.step deadline key turn).2) :=
  runAll_concat ..

/-! ## The records of one key -/

/-- A record is about a key. -/
def About (key : EntryKey) (rec : DiffRecord) : Prop :=
  rec.slot = key.1 ∧ rec.ysHash.or rec.ssHash = some key.2

instance (key : EntryKey) (rec : DiffRecord) : Decidable (About key rec) :=
  inferInstanceAs (Decidable (_ ∧ _))

/-- The record of a key that an effect offers, if any. -/
def recordAbout (key : EntryKey) (effect : CorrelatorEffect) : Option DiffRecord :=
  (effect.message?.bind Output.record?).filter (About key)

theorem recordAbout_record (key : EntryKey) (rec : DiffRecord) :
    recordAbout key (.trySend (.record rec)) = if About key rec then some rec else none := by
  simp [recordAbout, Output.record?, Option.filter]

variable {cfg : Config} {key : EntryKey}

/-- The record of filed observations is about their key. -/
theorem recordOf_about {received : EntryObservation → Prop} {st : MatchState} {rec : DiffRecord}
    (filed : st.Filed received key) (made : recordOf cfg st = some rec) : About key rec := by
  obtain ⟨ys, ss, insertedAt⟩ := st
  cases ys with
  | some y =>
    obtain ⟨_, _, own⟩ := filed.yellowstone y rfl
    cases ss <;> cases made <;> exact own ▸ ⟨rfl, rfl⟩
  | none =>
    cases ss with
    | none => cases made
    | some s =>
      obtain ⟨_, _, own⟩ := filed.shredstream s rfl
      cases made
      exact own ▸ ⟨rfl, rfl⟩

theorem About.unique {first second : EntryKey} {rec : DiffRecord} (about : About first rec)
    (about' : About second rec) : first = second :=
  Prod.ext (about.1.symm.trans about'.1) (Option.some.inj (about.2.symm.trans about'.2))

theorem emit_about {received : EntryObservation → Prop} {st : MatchState} {own : EntryKey}
    (filed : st.Filed received own) (occupied : st.Occupied) :
    (emit cfg st).filterMap (recordAbout key) =
      if own = key then (recordOf cfg st).toList else [] := by
  obtain ⟨rec, made, emitted⟩ := emit_occupied cfg occupied
  have about := recordOf_about filed made
  rw [emitted, made]
  split
  · next same =>
    subst same
    simp [recordAbout_record, about]
  · next other =>
    have foreign : ¬ About key rec := fun about' => other (about.unique about')
    simp [recordAbout_record, foreign]

/-- The record of a period is about the key of its arrivals. -/
theorem emit_period {arrivals : List Arrival} {st : MatchState}
    (own : ∀ arrival ∈ arrivals, keyOf arrival.1 = key) (nonempty : arrivals ≠ [])
    (held : stateOf arrivals = some st) :
    (emit cfg st).filterMap (recordAbout key) = [arrivals].filterMap (recordFor cfg) := by
  obtain ⟨st', held', holds⟩ := stateOf_holds nonempty
  obtain rfl := Option.some.inj (held.symm.trans held')
  have made : recordFor cfg arrivals = recordOf cfg st := by rw [recordFor, held, Option.bind_some]
  rw [emit_about (holds.filed own) (holds.occupied nonempty), if_pos rfl, List.filterMap_cons, made]
  cases recordOf cfg st <;> rfl

/-! ## The correlator holds the view of every key -/

/-- The map holds what the arrivals of a key amount to. -/
structure MapView (map : MatchMap) (key : EntryKey) (arrivals : List Arrival) : Prop where
  filed : FiledMap (fun _ => True) map
  get : map.get key = stateOf arrivals
  own : ∀ arrival ∈ arrivals, keyOf arrival.1 = key
  incomplete : ¬ Complete arrivals

variable {map : MatchMap} {view : KeyView}

theorem mapView_closed (filed : FiledMap (fun _ => True) map) (absent : map.get key = none) :
    MapView map key [] :=
  ⟨filed, absent, fun _ member => (by cases member),
    fun complete => (by obtain ⟨⟨_, member, _⟩, _⟩ := complete; cases member)⟩

theorem handle_view (cfg : Config) (views : MapView map key view.arrivals) (arrival : Arrival) :
    MapView (handle cfg map arrival.1 arrival.2).1 key (view.note key (some arrival)).1.arrivals ∧
      (handle cfg map arrival.1 arrival.2).2.filterMap (recordAbout key) =
        (view.note key (some arrival)).2.filterMap (recordFor cfg) := by
  have filed : FiledMap (fun _ => True) (handle cfg map arrival.1 arrival.2).1 :=
    (handle_filed cfg views.filed trivial arrival.2).1
  have noted : (((map.get (keyOf arrival.1)).getD { insertedAt := arrival.2 }).note
      arrival.1).Filed (fun _ => True) (keyOf arrival.1) :=
    (views.filed.entry (keyOf arrival.1) arrival.2).note trivial rfl
  unfold KeyView.note
  dsimp only
  split
  · next own =>
    have joined : ∀ other ∈ view.arrivals ++ [arrival], keyOf other.1 = key := by
      intro other member
      rcases List.mem_append.mp member with before | last
      · exact views.own other before
      · rw [List.mem_singleton.mp last, own]
    have nonempty : view.arrivals ++ [arrival] ≠ [] := by simp
    obtain ⟨st, held, holds⟩ := stateOf_holds nonempty
    have entry : ((map.get (keyOf arrival.1)).getD { insertedAt := arrival.2 }).note arrival.1 =
        st := by
      rw [own, views.get]
      exact Option.some.inj ((stateOf_concat view.arrivals arrival).symm.trans held)
    unfold handle at filed ⊢
    dsimp only at filed ⊢
    rw [entry] at filed ⊢
    by_cases complete : Complete (view.arrivals ++ [arrival])
    · rw [if_pos (holds.paired.mpr complete)] at filed ⊢
      rw [if_pos complete]
      exact ⟨mapView_closed filed (own ▸ HashTable.get_remove_self ..),
        emit_period joined nonempty held⟩
    · have waits : ¬ st.paired = true := fun both => complete (holds.paired.mp both)
      rw [if_neg waits] at filed ⊢
      rw [if_neg complete]
      exact ⟨⟨filed, by rw [own, HashTable.get_insert_self, held], joined, complete⟩, rfl⟩
  · next other =>
    have apart : key ≠ keyOf arrival.1 := fun same => other same.symm
    unfold handle at filed ⊢
    dsimp only at filed ⊢
    split at filed
    · next both =>
      rw [if_pos both]
      refine ⟨⟨filed, ?_, views.own, views.incomplete⟩, ?_⟩
      · rw [HashTable.get_remove_of_ne _ apart, views.get]
      · rw [emit_about noted (MatchState.occupied_note _), if_neg other]
        rfl
    · next waits =>
      rw [if_neg waits]
      exact ⟨⟨filed, by rw [HashTable.get_insert_of_ne _ _ apart, views.get], views.own,
        views.incomplete⟩, rfl⟩

theorem receive_view (cfg : Config) (views : MapView map key view.arrivals)
    (received : Option Arrival) :
    MapView (receive cfg map received).1 key (view.note key received).1.arrivals ∧
      (receive cfg map received).2.filterMap (recordAbout key) =
        (view.note key received).2.filterMap (recordFor cfg) := by
  cases received with
  | none => exact ⟨views, rfl⟩
  | some arrival => exact handle_view cfg views arrival

theorem expire_eq_takeOut (cfg : Config) :
    expire cfg = HashTable.takeOut fun _ st => emit cfg st := by
  funext map key
  unfold expire HashTable.takeOut
  cases map.get key <;> rfl

theorem mem_stale {deadline : Duration} {now : Instant} :
    key ∈ stale deadline map now ↔
      ∃ st, map.get key = some st ∧ deadline ≤ saturatingDurationSince now st.insertedAt := by
  simp only [stale, List.mem_map, List.mem_filter, decide_eq_true_eq]
  constructor
  · rintro ⟨⟨_, st⟩, ⟨member, waited⟩, rfl⟩
    exact ⟨st, HashTable.mem_entries.mp member, waited⟩
  · rintro ⟨st, found, waited⟩
    exact ⟨⟨key, st⟩, ⟨HashTable.mem_entries.mpr found, waited⟩, rfl⟩

theorem nodup_stale (deadline : Duration) (map : MatchMap) (now : Instant) :
    (stale deadline map now).Nodup :=
  List.Nodup.sublist (List.filter_sublist.map _) map.nodupKeys

/-- A key is swept when its arrivals are overdue. -/
theorem MapView.mem_stale_iff {arrivals : List Arrival} (views : MapView map key arrivals)
    {deadline : Duration} {now : Instant} :
    key ∈ stale deadline map now ↔ Overdue deadline arrivals now := by
  rw [mem_stale, views.get, Overdue]
  by_cases vacant : arrivals = []
  · subst vacant
    simp [stateOf]
  · obtain ⟨st, held, holds⟩ := stateOf_holds vacant
    obtain ⟨first, opened, stamped⟩ := Option.map_eq_some_iff.mp holds.insertedAt
    simp [held, opened, stamped]

theorem sweep_view (cfg : Config) (views : MapView map key view.arrivals) (deadline : Duration)
    (now : Instant) :
    MapView (sweep cfg deadline map now).1 key (view.close deadline now).1.arrivals ∧
      (sweep cfg deadline map now).2.filterMap (recordAbout key) =
        (view.close deadline now).2.filterMap (recordFor cfg) := by
  have filed := (sweep_filed cfg views.filed deadline now).1
  have foreign : ∀ other st, other ≠ key → map.get other = some st →
      (emit cfg st).filterMap (recordAbout key) = [] := by
    intro other st apart found
    obtain ⟨own, occupied, _⟩ := views.filed other st found
    rw [emit_about own occupied, if_neg apart]
  have left :=
    HashTable.runAll_takeOut_get (fun _ st => emit cfg st) (stale deadline map now) map key
  have given := HashTable.runAll_takeOut_filterMap (fun _ st => emit cfg st) (recordAbout key)
    (nodup_stale deadline map now) map key foreign
  rw [← expire_eq_takeOut] at left given
  unfold sweep at filed ⊢
  unfold KeyView.close
  by_cases overdue : Overdue deadline view.arrivals now
  · rw [if_pos (views.mem_stale_iff.mpr overdue)] at left given
    rw [if_pos overdue]
    refine ⟨mapView_closed filed left, given.trans ?_⟩
    have nonempty : view.arrivals ≠ [] := by
      rintro vacant
      obtain ⟨first, opened, _⟩ := overdue
      rw [vacant] at opened
      cases opened
    obtain ⟨st, held, _⟩ := stateOf_holds nonempty
    rw [views.get, held, Option.map_some, Option.getD_some]
    exact emit_period views.own nonempty held
  · have kept := fun stale' => overdue (views.mem_stale_iff.mp stale')
    rw [if_neg kept] at left given
    rw [if_neg overdue]
    exact ⟨⟨filed, left.trans views.get, views.own, views.incomplete⟩, given⟩

/-- The correlator holds the view of a key. -/
structure Views (corr : State) (key : EntryKey) (view : KeyView) : Prop where
  map : MapView corr.map key view.arrivals
  lastSweep : corr.lastSweep = view.lastSweep

theorem note_lastSweep (received : Option Arrival) :
    (view.note key received).1.lastSweep = view.lastSweep := by
  unfold KeyView.note
  split
  · split
    · split <;> rfl
    · rfl
  · rfl

theorem step_view {corr : State} (views : Views corr key view) (turn : Turn) :
    Views (step cfg corr turn).1 key (view.step cfg.deadline key turn).1 ∧
      (step cfg corr turn).2.filterMap (recordAbout key) =
        (view.step cfg.deadline key turn).2.filterMap (recordFor cfg) := by
  obtain ⟨map, swept⟩ := views
  obtain ⟨noted, records⟩ := receive_view cfg map turn.received
  unfold step KeyView.step
  dsimp only
  rw [← swept]
  split
  · obtain ⟨closed, more⟩ := sweep_view cfg noted cfg.deadline turn.now
    refine ⟨⟨closed, rfl⟩, ?_⟩
    rw [List.filterMap_append, List.filterMap_append, records, more]
  · exact ⟨⟨noted, by rw [note_lastSweep, swept]⟩, records⟩

theorem runTurns_view (cfg : Config) (key : EntryKey) (startedAt : Instant) (turns : List Turn) :
    Views (runTurns cfg startedAt turns).1 key (viewAll cfg.deadline key startedAt turns).1 ∧
      (runTurns cfg startedAt turns).2.filterMap (recordAbout key) =
        (viewAll cfg.deadline key startedAt turns).2.filterMap (recordFor cfg) := by
  induction turns using List.reverseRecOn with
  | nil => exact ⟨⟨mapView_closed filedMap_empty (HashTable.get_empty key), rfl⟩, rfl⟩
  | append_singleton past turn ih =>
    obtain ⟨views, records⟩ := ih
    obtain ⟨views', more⟩ := step_view views turn
    rw [viewAll_concat, runTurns, runAll_concat]
    exact ⟨views', by rw [List.filterMap_append, List.filterMap_append, ← records, ← more]; rfl⟩

/-- The records of a run that are about a key. -/
def recordsAbout (cfg : Config) (key : EntryKey) (startedAt : Instant) (turns : List Turn)
    (endedAt : Instant) : List DiffRecord :=
  (records cfg startedAt turns endedAt).filter (About key)

/-- **The records of a key are the records of its periods.** -/
theorem records_periods (cfg : Config) (key : EntryKey) (startedAt : Instant) (turns : List Turn)
    (endedAt : Instant) :
    recordsAbout cfg key startedAt turns endedAt =
      (periods cfg.deadline key startedAt turns endedAt).filterMap (recordFor cfg) := by
  obtain ⟨views, early⟩ := runTurns_view cfg key startedAt turns
  obtain ⟨_, late⟩ := sweep_view cfg views.map 0 endedAt
  have read : recordsAbout cfg key startedAt turns endedAt =
      ((runTurns cfg startedAt turns).2 ++
        (finish cfg (runTurns cfg startedAt turns).1 endedAt).2).filterMap (recordAbout key) := by
    unfold recordsAbout records outputs sent
    rw [List.filterMap_filterMap, List.filter_filterMap]
    rfl
  rw [read, List.filterMap_append, periods, List.filterMap_append, early, ← late]
  rfl

end SenderAnalysis.EntryComparator.Correlator

import SenderAnalysis.EntryComparator.Correlator.KeyViews

/-!
# The records of an entry

The periods of a key cut its arrivals into pieces: no piece is empty, and none goes on
after both sources have delivered the entry. An entry whose arrivals all come within the
deadline of the first has one record exactly when nothing arrives after both sources have
delivered it: the correlator forgets a pair when it writes it, so that a repeat opens the
key again (`one_record_iff`).

Within a period, a later observation of a source takes the place of the earlier one. The
times of a record are those of the first observations where the repeats carry the same
times (`first_times_iff`).
-/

set_option autoImplicit false

namespace SenderAnalysis.EntryComparator.Correlator

/-! ## The arrivals of a run -/

/-- The arrivals of a key. -/
def arrivalsOf (key : EntryKey) (turns : List Turn) : List Arrival :=
  turns.filterMap fun turn => turn.received.filter fun arrival => keyOf arrival.1 = key

/-- The clock readings of a run. -/
def readings (turns : List Turn) : List Instant :=
  turns.flatMap fun turn => (turn.received.map Prod.snd).toList ++ [turn.now]

/-- The clock does not go back. -/
def Clocked (turns : List Turn) : Prop := (readings turns).Pairwise (· ≤ ·)

instance (turns : List Turn) : Decidable (Clocked turns) :=
  inferInstanceAs (Decidable ((readings turns).Pairwise (· ≤ ·)))

/-- The arrivals after the first come before it has waited for the deadline. -/
def WithinDeadline (deadline : Duration) (arrivals : List Arrival) : Prop :=
  ∀ first ∈ arrivals.head?, ∀ later ∈ arrivals.tail, later.2 < first.2 + deadline

instance (deadline : Duration) (arrivals : List Arrival) :
    Decidable (WithinDeadline deadline arrivals) :=
  inferInstanceAs (Decidable (∀ _ ∈ arrivals.head?, _))

/-- Nothing arrives after both sources have delivered the entry. -/
def NoneAfterBoth (arrivals : List Arrival) : Prop :=
  ∀ past rest, arrivals = past ++ rest → Complete past → rest = []

variable {cfg : Config} {key : EntryKey} {deadline : Duration} {startedAt endedAt : Instant}

theorem arrivalsOf_append (key : EntryKey) (past future : List Turn) :
    arrivalsOf key (past ++ future) = arrivalsOf key past ++ arrivalsOf key future :=
  List.filterMap_append

theorem arrivalsOf_single (key : EntryKey) (turn : Turn) :
    arrivalsOf key [turn] = (turn.received.filter fun arrival => keyOf arrival.1 = key).toList := by
  rw [arrivalsOf, List.filterMap_cons]
  cases turn.received.filter fun arrival => keyOf arrival.1 = key <;> rfl

theorem mem_readings {turns : List Turn} {arrival : Arrival}
    (member : arrival ∈ arrivalsOf key turns) : arrival.2 ∈ readings turns := by
  obtain ⟨turn, among, found⟩ := List.mem_filterMap.mp member
  refine List.mem_flatMap.mpr ⟨turn, among, List.mem_append_left _ ?_⟩
  rw [(Option.filter_eq_some_iff.mp found).1]
  simp

theorem Clocked.le {past future : List Turn} (clocked : Clocked (past ++ future))
    {earlier later : Instant} (before : earlier ∈ readings past) (after : later ∈ readings future) :
    earlier ≤ later := by
  rw [Clocked, readings, List.flatMap_append, List.pairwise_append] at clocked
  exact clocked.2.2 earlier before later after

theorem Complete.append {past : List Arrival} (complete : Complete past) (rest : List Arrival) :
    Complete (past ++ rest) := by
  obtain ⟨⟨y, inY, ys⟩, s, inS, ss⟩ := complete
  exact ⟨⟨y, List.mem_append_left _ inY, ys⟩, s, List.mem_append_left _ inS, ss⟩

/-- What comes in after incomplete arrivals may complete them, and nothing before it. -/
theorem noneAfterBoth_concat {past : List Arrival} (incomplete : ¬ Complete past)
    (arrival : Arrival) : NoneAfterBoth (past ++ [arrival]) := by
  intro before rest split complete
  rcases List.eq_nil_or_concat rest with none | ⟨middle, last, rfl⟩
  · exact none
  · rw [List.concat_eq_append, ← List.append_assoc] at split
    obtain ⟨rfl, -⟩ := List.append_inj' split rfl
    exact absurd (complete.append middle) incomplete

theorem noneAfterBoth_of_incomplete {arrivals : List Arrival} (incomplete : ¬ Complete arrivals) :
    NoneAfterBoth arrivals := by
  intro past rest split complete
  exact absurd (split ▸ complete.append rest) incomplete

/-! ## The periods cut the arrivals -/

/-- A period has arrivals, and none after both sources have delivered the entry. -/
def WholePeriod (period : List Arrival) : Prop := period ≠ [] ∧ NoneAfterBoth period

variable {view : KeyView}

theorem not_overdue_nil (deadline : Duration) (now : Instant) : ¬ Overdue deadline [] now := by
  rintro ⟨_, opened, _⟩
  cases opened

theorem not_complete_nil : ¬ Complete [] := by
  rintro ⟨⟨_, member, _⟩, _⟩
  cases member

theorem note_cuts (key : EntryKey) (incomplete : ¬ Complete view.arrivals) (turn : Turn) :
    (view.note key turn.received).2.flatten ++ (view.note key turn.received).1.arrivals =
        view.arrivals ++ arrivalsOf key [turn] ∧
      ¬ Complete (view.note key turn.received).1.arrivals ∧
      ∀ period ∈ (view.note key turn.received).2, WholePeriod period := by
  rw [arrivalsOf_single]
  unfold KeyView.note
  split
  · next arrival arrived =>
    rw [arrived]
    by_cases own : keyOf arrival.1 = key
    · have whole : WholePeriod (view.arrivals ++ [arrival]) :=
        ⟨by simp, noneAfterBoth_concat incomplete arrival⟩
      by_cases complete : Complete (view.arrivals ++ [arrival])
      · simpa [own, complete, Option.filter, not_complete_nil] using whole
      · simp [own, complete, Option.filter]
    · simp [own, incomplete, Option.filter]
  · next idle => simp [idle, incomplete]

theorem close_cuts (incomplete : ¬ Complete view.arrivals) (deadline : Duration) (now : Instant) :
    (view.close deadline now).2.flatten ++ (view.close deadline now).1.arrivals = view.arrivals ∧
      ¬ Complete (view.close deadline now).1.arrivals ∧
      ∀ period ∈ (view.close deadline now).2, WholePeriod period := by
  unfold KeyView.close
  split
  · next overdue =>
    have nonempty : view.arrivals ≠ [] := fun vacant =>
      not_overdue_nil deadline now (vacant ▸ overdue)
    have whole : WholePeriod view.arrivals := ⟨nonempty, noneAfterBoth_of_incomplete incomplete⟩
    exact ⟨by simp, not_complete_nil, by simpa using whole⟩
  · exact ⟨rfl, incomplete, by simp⟩

theorem step_cuts (deadline : Duration) (key : EntryKey) (incomplete : ¬ Complete view.arrivals)
    (turn : Turn) :
    (view.step deadline key turn).2.flatten ++ (view.step deadline key turn).1.arrivals =
        view.arrivals ++ arrivalsOf key [turn] ∧
      ¬ Complete (view.step deadline key turn).1.arrivals ∧
      ∀ period ∈ (view.step deadline key turn).2, WholePeriod period := by
  obtain ⟨joined, open', whole⟩ := note_cuts key incomplete turn
  unfold KeyView.step
  dsimp only
  split
  · obtain ⟨cut, open'', whole'⟩ := close_cuts open' deadline turn.now
    refine ⟨?_, open'', fun period member => ?_⟩
    · rw [List.flatten_append, List.append_assoc, cut, joined]
    · exact (List.mem_append.mp member).elim (whole period) (whole' period)
  · exact ⟨joined, open', whole⟩

theorem viewAll_cuts (deadline : Duration) (key : EntryKey) (startedAt : Instant)
    (turns : List Turn) :
    (viewAll deadline key startedAt turns).2.flatten ++
          (viewAll deadline key startedAt turns).1.arrivals = arrivalsOf key turns ∧
      ¬ Complete (viewAll deadline key startedAt turns).1.arrivals ∧
      ∀ period ∈ (viewAll deadline key startedAt turns).2, WholePeriod period := by
  induction turns using List.reverseRecOn with
  | nil => exact ⟨rfl, not_complete_nil, by simp [viewAll]⟩
  | append_singleton past turn ih =>
    obtain ⟨joined, incomplete, whole⟩ := ih
    obtain ⟨joined', incomplete', whole'⟩ :=
      step_cuts deadline key incomplete turn
    rw [viewAll_concat, arrivalsOf_append]
    refine ⟨?_, incomplete', fun period member => ?_⟩
    · rw [List.flatten_append, List.append_assoc, joined', ← List.append_assoc, joined]
    · exact (List.mem_append.mp member).elim (whole period) (whole' period)

/-- **The periods of a key are its arrivals, in pieces that end no later than where both
sources have delivered the entry.** -/
theorem periods_cut (deadline : Duration) (key : EntryKey) (startedAt : Instant)
    (turns : List Turn) (endedAt : Instant) :
    (periods deadline key startedAt turns endedAt).flatten = arrivalsOf key turns ∧
      ∀ period ∈ periods deadline key startedAt turns endedAt, WholePeriod period := by
  obtain ⟨joined, incomplete, whole⟩ := viewAll_cuts deadline key startedAt turns
  obtain ⟨cut, _, whole'⟩ := close_cuts incomplete 0 endedAt
  have flushed : ((viewAll deadline key startedAt turns).1.close 0 endedAt).1.arrivals = [] := by
    unfold KeyView.close
    split
    · rfl
    · next current =>
      cases left : (viewAll deadline key startedAt turns).1.arrivals with
      | nil => rfl
      | cons first rest => exact absurd ⟨first, by rw [left]; rfl, Nat.zero_le _⟩ current
  rw [flushed, List.append_nil] at cut
  refine ⟨?_, fun period member => (List.mem_append.mp member).elim (whole period) (whole' period)⟩
  rw [periods, List.flatten_append, cut, joined]

/-! ## Records of periods -/

theorem recordFor_whole (cfg : Config) {period : List Arrival} (whole : WholePeriod period) :
    ∃ st rec, Holds period st ∧ recordOf cfg st = some rec ∧ recordFor cfg period = some rec := by
  obtain ⟨st, held, holds⟩ := stateOf_holds whole.1
  obtain ⟨rec, made, _⟩ := emit_occupied cfg (holds.occupied whole.1)
  exact ⟨st, rec, holds, made, by rw [recordFor, held, Option.bind_some, made]⟩

/-- Every period has a record. -/
theorem recordFor_forall₂ {closed : List (List Arrival)}
    (whole : ∀ period ∈ closed, WholePeriod period) :
    List.Forall₂ (fun rec period => recordFor cfg period = some rec)
      (closed.filterMap (recordFor cfg)) closed := by
  induction closed with
  | nil => exact .nil
  | cons period rest ih =>
    obtain ⟨_, rec, _, _, made⟩ := recordFor_whole cfg (whole period (List.mem_cons_self ..))
    rw [List.filterMap_cons_some made]
    exact .cons made (ih fun other member => whole other (List.mem_cons_of_mem _ member))

/-- The records of a key are, in order, those of its periods. -/
theorem recordsAbout_forall₂ (cfg : Config) (key : EntryKey) (startedAt : Instant)
    (turns : List Turn) (endedAt : Instant) :
    List.Forall₂ (fun rec period => recordFor cfg period = some rec)
      (recordsAbout cfg key startedAt turns endedAt)
      (periods cfg.deadline key startedAt turns endedAt) := by
  rw [records_periods]
  exact recordFor_forall₂ (periods_cut cfg.deadline key startedAt turns endedAt).2

theorem recordOf_both {st : MatchState} {rec : DiffRecord} (made : recordOf cfg st = some rec) :
    rec.source = .both ↔ st.paired = true := by
  obtain ⟨_ | y, _ | s, _⟩ := st <;> cases made <;> simp [MatchState.paired]

/-! ## One record of an entry -/

/-- While arrivals of the key are still to come, all of them so far are in one open period;
they may have been closed together only after the last. -/
def Undivided (all sofar : List Arrival) (viewed : KeyView × List (List Arrival)) : Prop :=
  (viewed.2 = [] ∧ viewed.1.arrivals = sofar) ∨
    (sofar = all ∧ viewed.2 = [all] ∧ viewed.1.arrivals = [])

/-- With nothing after both sources have delivered the entry, an arrival closes the
period only when it is the last. -/
theorem note_undivided {all sofar future : List Arrival} (turn : Turn)
    (split : all = sofar ++ arrivalsOf key [turn] ++ future) (none' : NoneAfterBoth all)
    (opened : view.arrivals = sofar) :
    Undivided all (sofar ++ arrivalsOf key [turn]) (view.note key turn.received) := by
  rw [arrivalsOf_single] at split ⊢
  unfold KeyView.note
  split
  · next arrival arrived =>
    rw [arrived] at split ⊢
    rw [opened]
    by_cases own : keyOf arrival.1 = key
    · have joins : (Option.filter (fun a : Arrival => keyOf a.1 = key) (some arrival)).toList =
          [arrival] := by simp [Option.filter, own]
      rw [joins] at split ⊢
      rw [if_pos own]
      by_cases complete : Complete (sofar ++ [arrival])
      · obtain rfl := none' _ _ split complete
        rw [List.append_nil] at split
        rw [if_pos complete]
        exact Or.inr ⟨split.symm, by rw [split], rfl⟩
      · rw [if_neg complete]
        exact Or.inl ⟨rfl, rfl⟩
    · rw [if_neg own]
      exact Or.inl ⟨rfl, by simp [Option.filter, own, opened]⟩
  · next idle => exact Or.inl ⟨rfl, by simp [idle, opened]⟩

/-- A turn that brings nothing for the key leaves its view as it is. -/
theorem note_idle {turn : Turn} (idle : arrivalsOf key [turn] = []) :
    view.note key turn.received = (view, []) := by
  rw [arrivalsOf_single] at idle
  unfold KeyView.note
  split
  · next arrival arrived =>
    have other : ¬ keyOf arrival.1 = key := by simpa [arrived, Option.filter] using idle
    rw [if_neg other]
  · rfl

/-- A sweep closes the period only after the last arrival, when all come in time. -/
theorem close_undivided {all sofar future : List Arrival} {viewed : KeyView × List (List Arrival)}
    (split : all = sofar ++ future) (undivided : Undivided all sofar viewed)
    {deadline : Duration} {now : Instant}
    (early : future ≠ [] → ¬ Overdue deadline sofar now) :
    Undivided all sofar ((viewed.1.close deadline now).1,
      viewed.2 ++ (viewed.1.close deadline now).2) := by
  unfold KeyView.close
  rcases undivided with ⟨none', opened⟩ | ⟨last, closed, empty⟩
  · rw [opened, none']
    by_cases overdue : Overdue deadline sofar now
    · rw [if_pos overdue]
      have last : future = [] := by
        by_contra more
        exact early more overdue
      rw [last, List.append_nil] at split
      exact Or.inr ⟨split.symm, by rw [split]; rfl, rfl⟩
    · rw [if_neg overdue]
      exact Or.inl ⟨rfl, opened⟩
  · rw [empty, if_neg (not_overdue_nil deadline now), closed]
    exact Or.inr ⟨last, rfl, empty⟩

theorem not_waited {opened now later deadline : Nat} (swept : now ≤ later)
    (ordered : opened ≤ later) (due : later < opened + deadline) : ¬ deadline ≤ now - opened := by
  omega

/-- No sweep before a later arrival finds the key overdue. -/
theorem not_overdue_before {past future : List Turn} {turn : Turn}
    (clocked : Clocked (past ++ [turn] ++ future))
    (prompt : WithinDeadline deadline (arrivalsOf key (past ++ [turn] ++ future)))
    (more : arrivalsOf key future ≠ []) :
    ¬ Overdue deadline (arrivalsOf key (past ++ [turn])) turn.now := by
  rintro ⟨first, opened, waited⟩
  obtain ⟨later, rest, comes⟩ := List.exists_cons_of_ne_nil more
  have among : later ∈ arrivalsOf key future := comes ▸ List.mem_cons_self ..
  obtain ⟨tail, starts⟩ : ∃ tail, arrivalsOf key (past ++ [turn]) = first :: tail :=
    List.head?_eq_some_iff.mp opened
  have started : first ∈ arrivalsOf key (past ++ [turn]) := starts ▸ List.mem_cons_self ..
  have swept : turn.now ≤ later.2 :=
    clocked.le (by simp [readings]) (mem_readings among)
  have ordered : first.2 ≤ later.2 := clocked.le (mem_readings started) (mem_readings among)
  have due : later.2 < first.2 + deadline := by
    rw [arrivalsOf_append, starts] at prompt
    exact prompt first rfl later (List.mem_append_right _ among)
  exact not_waited swept ordered due waited

theorem viewAll_undivided {turns : List Turn} (clocked : Clocked turns)
    (prompt : WithinDeadline deadline (arrivalsOf key turns))
    (none' : NoneAfterBoth (arrivalsOf key turns)) (startedAt : Instant) (past future : List Turn)
    (split : turns = past ++ future) :
    Undivided (arrivalsOf key turns) (arrivalsOf key past)
      (viewAll deadline key startedAt past) := by
  induction past using List.reverseRecOn generalizing future with
  | nil => exact Or.inl ⟨rfl, rfl⟩
  | append_singleton past turn ih =>
    have before := ih (turn :: future) (by simpa using split)
    have pieces : arrivalsOf key turns =
        arrivalsOf key past ++ arrivalsOf key [turn] ++ arrivalsOf key future := by
      rw [split, arrivalsOf_append, arrivalsOf_append]
    have early : arrivalsOf key future ≠ [] →
        ¬ Overdue deadline (arrivalsOf key (past ++ [turn])) turn.now := by
      rw [split] at clocked prompt
      exact not_overdue_before clocked prompt
    have noted : Undivided (arrivalsOf key turns) (arrivalsOf key (past ++ [turn]))
        (((viewAll deadline key startedAt past).1.note key turn.received).1,
          (viewAll deadline key startedAt past).2 ++
            ((viewAll deadline key startedAt past).1.note key turn.received).2) := by
      rw [arrivalsOf_append]
      rcases before with ⟨empty, opened⟩ | ⟨last, closed, empty⟩
      · rw [empty]
        exact note_undivided turn pieces none' opened
      · -- All arrivals are in: this turn brings none.
        rw [← last, List.append_assoc] at pieces
        obtain ⟨idle, -⟩ := List.append_eq_nil_iff.mp (List.self_eq_append_right.mp pieces)
        rw [note_idle idle, idle, List.append_nil, List.append_nil]
        exact Or.inr ⟨last, closed, empty⟩
    rw [viewAll_concat]
    unfold KeyView.step
    dsimp only
    split
    · rw [← List.append_assoc]
      exact close_undivided (by rw [pieces, arrivalsOf_append]) noted early
    · exact noted

/-- When nothing arrives after both sources have delivered the entry, all its arrivals are
one period. -/
theorem periods_whole {turns : List Turn} (clocked : Clocked turns)
    (prompt : WithinDeadline deadline (arrivalsOf key turns))
    (arrived : arrivalsOf key turns ≠ []) (none' : NoneAfterBoth (arrivalsOf key turns))
    (startedAt endedAt : Instant) :
    periods deadline key startedAt turns endedAt = [arrivalsOf key turns] := by
  have undivided := viewAll_undivided clocked prompt none' startedAt turns [] (by simp)
  unfold periods KeyView.close
  rcases undivided with ⟨none', opened⟩ | ⟨_, closed, empty⟩
  · obtain ⟨first, rest, starts⟩ := List.exists_cons_of_ne_nil arrived
    have due : Overdue 0 (arrivalsOf key turns) endedAt :=
      ⟨first, by rw [starts]; rfl, Nat.zero_le _⟩
    rw [opened, none', if_pos due]
    rfl
  · rw [closed, empty, if_neg (not_overdue_nil 0 endedAt)]
    rfl

/-- **An entry that both sources deliver in time has one record, if and only if nothing
arrives after both have delivered it.** -/
theorem one_record_iff {turns : List Turn} (clocked : Clocked turns)
    (prompt : WithinDeadline cfg.deadline (arrivalsOf key turns))
    (arrived : arrivalsOf key turns ≠ []) (startedAt endedAt : Instant) :
    (∃ rec, recordsAbout cfg key startedAt turns endedAt = [rec] ∧
      (rec.source = .both ↔ Complete (arrivalsOf key turns))) ↔
      NoneAfterBoth (arrivalsOf key turns) := by
  constructor
  · rintro ⟨rec, single, _⟩
    obtain ⟨joined, whole⟩ := periods_cut cfg.deadline key startedAt turns endedAt
    have matched := recordsAbout_forall₂ cfg key startedAt turns endedAt
    rw [single] at matched
    obtain ⟨period, rest, _, ends, cut⟩ := List.forall₂_cons_left_iff.mp matched
    obtain rfl := List.forall₂_nil_left_iff.mp ends
    rw [cut, List.flatten_singleton] at joined
    rw [← joined]
    exact (whole period (cut ▸ List.mem_singleton_self _)).2
  · intro none'
    obtain ⟨st, rec, holds, made, recorded⟩ :=
      recordFor_whole cfg (⟨arrived, none'⟩ : WholePeriod (arrivalsOf key turns))
    refine ⟨rec, ?_, (recordOf_both made).trans holds.paired⟩
    rw [records_periods, periods_whole clocked prompt arrived none',
      List.filterMap_cons_some recorded, List.filterMap_nil]

/-! ### A repeat after the pair -/

def sampleConfig : Config where
  anchor := 0
  deadline := 1000
  leaderLookup := fun _ => none

/-- An observation of one entry. -/
def sampleObservation (source : SourceKind) (observedAt : Instant) : EntryObservation where
  source := source
  observedAt := observedAt
  slot := 7
  entryIndex := 0
  numHashes := 1
  entryHash := Hash.default
  txCount := 1
  signatures := []
  firstShredAt := none
  leader := none

def sampleKey : EntryKey := (7, Hash.default)

/-- A turn that receives an observation as it is made. -/
def sampleTurn (source : SourceKind) (at' : Instant) : Turn where
  received := some (sampleObservation source at', at')
  now := at'

/-- Yellowstone, ShredStream, and Yellowstone again: the repeat gets a record of its own. -/
theorem one_record_violated :
    ¬ ∀ (cfg : Config) (key : EntryKey) (turns : List Turn), Clocked turns →
      WithinDeadline cfg.deadline (arrivalsOf key turns) → arrivalsOf key turns ≠ [] →
      ∀ startedAt endedAt, ∃ rec, recordsAbout cfg key startedAt turns endedAt = [rec] ∧
        (rec.source = .both ↔ Complete (arrivalsOf key turns)) := by
  intro law
  obtain ⟨rec, single, _⟩ := law sampleConfig sampleKey
    [sampleTurn .yellowstone 10, sampleTurn .shredStream 20, sampleTurn .yellowstone 30]
    (by decide) (by decide) (by decide) 0 40
  have two : (recordsAbout sampleConfig sampleKey 0
      [sampleTurn .yellowstone 10, sampleTurn .shredStream 20, sampleTurn .yellowstone 30]
      40).length = 2 := by decide
  rw [single] at two
  cases two

/-- Yellowstone repeats before ShredStream comes. -/
def pairTurns : List Turn :=
  [sampleTurn .yellowstone 10, sampleTurn .yellowstone 15, sampleTurn .shredStream 20]

/-- Both sources deliver, and nothing comes after both: one record of both. -/
theorem one_record_iff_pair :
    ∃ rec, recordsAbout sampleConfig sampleKey 0 pairTurns 40 = [rec] ∧ rec.source = .both := by
  have none' : NoneAfterBoth (arrivalsOf sampleKey pairTurns) := by
    intro past rest split complete
    change [_, _, _] = _ at split
    rcases past with _ | ⟨first, _ | ⟨second, _ | ⟨third, past⟩⟩⟩
    · exact absurd complete (by decide)
    · obtain ⟨rfl, _⟩ := List.cons.inj split
      exact absurd complete (by decide)
    · obtain ⟨rfl, more⟩ := List.cons.inj split
      obtain ⟨rfl, _⟩ := List.cons.inj more
      exact absurd complete (by decide)
    · have last := congrArg List.length split
      simp only [List.length_append, List.length_cons, List.length_nil] at last
      exact List.length_eq_zero_iff.mp (by omega)
  obtain ⟨rec, single, both⟩ :=
    (@one_record_iff sampleConfig sampleKey pairTurns (by decide) (by decide) (by decide) 0 40).mpr
      none'
  exact ⟨rec, single, both.mpr (by decide)⟩

/-! ## The times of a record -/

/-- The times of a record are those of the first observation of each source in a period. -/
def TakenFirst (cfg : Config) (rec : DiffRecord) (period : List Arrival) : Prop :=
  rec.ysObservedNs =
      (firstOf .yellowstone period).map (fun y => nsSince cfg y.observedAt) ∧
    rec.ssFecCompleteNs =
      (firstOf .shredStream period).map (fun s => nsSince cfg s.observedAt) ∧
    rec.ssFirstShredNs =
      ((firstOf .shredStream period).bind EntryObservation.firstShredAt).map (nsSince cfg)

/-- The last observation of each source in a period has the times of its first one. -/
def RepeatsAgree (cfg : Config) (period : List Arrival) : Prop :=
  ∀ source,
    (lastOf source period).map (fun obs => nsSince cfg obs.observedAt) =
        (firstOf source period).map (fun obs => nsSince cfg obs.observedAt) ∧
      (source = .shredStream →
        ((lastOf source period).bind EntryObservation.firstShredAt).map (nsSince cfg) =
          ((firstOf source period).bind EntryObservation.firstShredAt).map (nsSince cfg))

theorem recordOf_times {st : MatchState} {rec : DiffRecord} (made : recordOf cfg st = some rec) :
    rec.ysObservedNs = st.yellowstone.map (fun y => nsSince cfg y.observedAt) ∧
      rec.ssFecCompleteNs = st.shredstream.map (fun s => nsSince cfg s.observedAt) ∧
      rec.ssFirstShredNs =
        (st.shredstream.bind EntryObservation.firstShredAt).map (nsSince cfg) := by
  obtain ⟨_ | y, _ | s, _⟩ := st <;> cases made <;> exact ⟨rfl, rfl, rfl⟩

theorem takenFirst_iff {period : List Arrival} {rec : DiffRecord}
    (recorded : recordFor cfg period = some rec) :
    TakenFirst cfg rec period ↔ RepeatsAgree cfg period := by
  obtain ⟨st, held, made⟩ := Option.bind_eq_some_iff.mp recorded
  have nonempty : period ≠ [] := by
    rintro rfl
    cases held
  obtain ⟨st', held', holds⟩ := stateOf_holds nonempty
  obtain rfl := Option.some.inj (held.symm.trans held')
  obtain ⟨ys, fec, shred⟩ := recordOf_times made
  rw [TakenFirst, ys, fec, shred, holds.yellowstone, holds.shredstream]
  constructor
  · rintro ⟨ysSame, fecSame, shredSame⟩ source
    cases source with
    | yellowstone => exact ⟨ysSame, fun other => by cases other⟩
    | shredStream => exact ⟨fecSame, fun _ => shredSame⟩
  · intro agree
    exact ⟨(agree .yellowstone).1, (agree .shredStream).1, (agree .shredStream).2 rfl⟩

/-- **The times of a record are those of the first observations since the key was opened,
if and only if the repeats that came before the record carry the same times.** -/
theorem first_times_iff (cfg : Config) (key : EntryKey) (startedAt : Instant) (turns : List Turn)
    (endedAt : Instant) :
    List.Forall₂ (fun rec period => TakenFirst cfg rec period ↔ RepeatsAgree cfg period)
      (recordsAbout cfg key startedAt turns endedAt)
      (periods cfg.deadline key startedAt turns endedAt) :=
  (recordsAbout_forall₂ cfg key startedAt turns endedAt).imp fun _ _ => takenFirst_iff

/-- Yellowstone delivers twice before ShredStream: the record has the second time. -/
theorem first_times_violated :
    ¬ ∀ (cfg : Config) (key : EntryKey) (startedAt : Instant) (turns : List Turn)
        (endedAt : Instant),
      List.Forall₂ (TakenFirst cfg) (recordsAbout cfg key startedAt turns endedAt)
        (periods cfg.deadline key startedAt turns endedAt) := by
  intro law
  have taken := law sampleConfig sampleKey 0
    [sampleTurn .yellowstone 10, sampleTurn .yellowstone 20, sampleTurn .shredStream 30] 40
  have times : (recordsAbout sampleConfig sampleKey 0
      [sampleTurn .yellowstone 10, sampleTurn .yellowstone 20, sampleTurn .shredStream 30] 40).map
      DiffRecord.ysObservedNs = [some 20] := by decide
  have opened : periods sampleConfig.deadline sampleKey 0
      [sampleTurn .yellowstone 10, sampleTurn .yellowstone 20, sampleTurn .shredStream 30] 40 =
      [[(sampleObservation .yellowstone 10, 10), (sampleObservation .yellowstone 20, 20),
        (sampleObservation .shredStream 30, 30)]] := by decide
  obtain ⟨rec, one, stamped⟩ := List.map_eq_singleton_iff.mp times
  rw [one, opened] at taken
  obtain ⟨⟨ys, _⟩, _⟩ := List.forall₂_cons.mp taken
  rw [stamped] at ys
  exact absurd ys (by decide)

end SenderAnalysis.EntryComparator.Correlator

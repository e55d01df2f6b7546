import Mathlib.Algebra.Ring.Nat
import SenderAnalysis.EntrySources.ShredStream.Deshred
import SenderAnalysis.Foundations.Traces

/-!
# How often a FEC set is complete

What the tracker knows of a set is determined by the shreds of the set that arrived
since it was last handed on or dropped. The set is complete when these shreds tell how
many data shreds there are, and contain that many. Nothing remembers that a set was
handed on: its shreds, delivered again, are collected from the start and complete the
set once more.
-/

set_option autoImplicit false

namespace SenderAnalysis.ShredStream

/-! ## The shreds of a set -/

/-- A shred and the time of its arrival. -/
abbrev Arrival := Instant × Shred

/-- How many data shreds the last terminator announces. -/
def announced (arrivals : List Arrival) : Option UInt32 :=
  (arrivals.reverse.find? fun arrival =>
    arrival.2.shredType = .data ∧ arrival.2.isTerminator).map fun arrival =>
      arrival.2.index - arrival.2.fecSetIndex + 1

/-- The indices of the data shreds. -/
def dataIndices (arrivals : List Arrival) : Finset UInt32 :=
  ((arrivals.filter fun arrival => arrival.2.shredType = .data).map
    fun arrival => arrival.2.index).toFinset

/-- A terminator is there, and as many data shreds as it announces. -/
def Complete (arrivals : List Arrival) : Prop :=
  ∃ count, announced arrivals = some count ∧ count ≤ UInt32.ofNat (dataIndices arrivals).card

instance (arrivals : List Arrival) : Decidable (Complete arrivals) :=
  match found : announced arrivals with
  | some count =>
      decidable_of_iff (count ≤ UInt32.ofNat (dataIndices arrivals).card)
        (by simp [Complete, found])
  | none => isFalse (by simp [Complete, found])

/-- The first shred arrived too long ago. -/
def TooOld (now : Instant) (arrivals : List Arrival) : Prop :=
  ∃ first ∈ arrivals.head?, DeshredLoop.maxAge ≤ saturatingDurationSince now first.1

instance (now : Instant) (arrivals : List Arrival) : Decidable (TooOld now arrivals) :=
  match arrivals with
  | [] => isFalse (by simp [TooOld])
  | first :: _ =>
      decidable_of_iff (DeshredLoop.maxAge ≤ saturatingDurationSince now first.1)
        (by simp [TooOld])

/-- What the tracker keeps of the shreds. -/
def collect (arrivals : List Arrival) : FecSetState :=
  arrivals.foldl (fun state arrival => state.note arrival.1 arrival.2) {}

theorem collect_concat (past : List Arrival) (arrival : Arrival) :
    collect (past ++ [arrival]) = (collect past).note arrival.1 arrival.2 :=
  List.foldl_concat _ _ _ _

theorem announced_concat (past : List Arrival) (arrival : Arrival) :
    announced (past ++ [arrival]) =
      if arrival.2.shredType = .data ∧ arrival.2.isTerminator then
        some (arrival.2.index - arrival.2.fecSetIndex + 1)
      else announced past := by
  rw [announced, List.reverse_concat, List.find?_cons]
  by_cases marked : arrival.2.shredType = .data ∧ arrival.2.isTerminator
  · simp [marked]
  · simp only [marked, decide_false, if_false]
    rfl

theorem dataIndices_concat (past : List Arrival) (arrival : Arrival) :
    dataIndices (past ++ [arrival]) =
      if arrival.2.shredType = .data then insert arrival.2.index (dataIndices past)
      else dataIndices past := by
  ext idx
  by_cases data : arrival.2.shredType = .data <;> simp [dataIndices, data]

/-- The announced count is kept. -/
theorem collect_expected (arrivals : List Arrival) :
    (collect arrivals).expectedDataCount = announced arrivals := by
  induction arrivals using List.reverseRecOn with
  | nil => rfl
  | append_singleton past arrival ih =>
    rw [collect_concat, announced_concat, FecSetState.note, ← ih]
    cases kind : arrival.2.shredType with
    | data => simp
    | code => simp

/-- The data shreds are kept under their indices. -/
theorem collect_data (arrivals : List Arrival) :
    (collect arrivals).data.size = (dataIndices arrivals).card ∧
      ∀ idx, idx ∈ dataIndices arrivals ↔ ((collect arrivals).data.get idx).isSome := by
  induction arrivals using List.reverseRecOn with
  | nil => exact ⟨rfl, fun idx => by simp [dataIndices, collect]⟩
  | append_singleton past arrival ih =>
    obtain ⟨size, held⟩ := ih
    rw [collect_concat, dataIndices_concat, FecSetState.note]
    cases kind : arrival.2.shredType with
    | code => exact ⟨by simpa using size, by simpa using held⟩
    | data =>
      refine ⟨?_, fun idx => ?_⟩
      · cases present : (collect past).data.get arrival.2.index with
        | none =>
          have fresh : arrival.2.index ∉ dataIndices past := by simp [held, present]
          simp [HashTable.size_insert_of_none _ present, fresh, size]
        | some old =>
          have known : arrival.2.index ∈ dataIndices past := by simp [held, present]
          simp [HashTable.size_insert_of_some _ present, known, size]
      · by_cases same : idx = arrival.2.index <;> simp [HashTable.get_insert, same, held]

/-- **The tracker finds a set complete when its shreds are.** -/
theorem collect_dataComplete (arrivals : List Arrival) :
    (collect arrivals).dataComplete = true ↔ Complete arrivals := by
  rw [FecSetState.dataComplete, collect_expected, (collect_data arrivals).1, Complete]
  cases announced arrivals <;> simp

theorem collect_firstShredAt (arrivals : List Arrival) :
    (collect arrivals).firstShredAt = arrivals.head?.map Prod.fst := by
  induction arrivals using List.reverseRecOn with
  | nil => rfl
  | append_singleton past arrival ih =>
    have stamped : (collect (past ++ [arrival])).firstShredAt =
        some ((collect past).firstShredAt.getD arrival.1) := by
      rw [collect_concat, FecSetState.note]
      split <;> rfl
    rw [stamped, ih]
    cases past <;> rfl

theorem collect_alive (now : Instant) (arrivals : List Arrival) :
    (collect arrivals).alive now DeshredLoop.maxAge = true ↔ ¬ TooOld now arrivals := by
  rw [FecSetState.alive, collect_firstShredAt, TooOld]
  cases arrivals <;> simp

/-! ## The open arrivals -/

/-- What a run leaves of one set: the shreds that arrived since the set was last handed
on or dropped, and when old sets were last dropped. -/
structure SetView where
  arrivals : List Arrival := []
  lastEvict : Instant

namespace SetView

variable (parse : List UInt8 → Option Shred) (key : FecSetKey)

/-- The open arrivals after a packet. A shred of the set joins them or completes the
set. -/
def receive (view : SetView) (packet : RawShredPacket) : List Arrival :=
  match parse packet.bytes with
  | none => view.arrivals
  | some shred =>
      if shred.key = key then
        let arrived := view.arrivals ++ [(packet.receivedAt, shred)]
        if Complete arrived then [] else arrived
      else view.arrivals

/-- One turn, as far as it concerns the set. -/
def step (view : SetView) (input : DeshredInput) : SetView :=
  let unfinished := view.receive parse key input.packet
  if DeshredLoop.EvictionDue view.lastEvict input.now then
    { arrivals := if TooOld input.now unfinished then [] else unfinished
      lastEvict := input.now }
  else { view with arrivals := unfinished }

/-- The set after a list of turns. -/
def after (startedAt : Instant) (inputs : List DeshredInput) : SetView :=
  inputs.foldl (step parse key) { lastEvict := startedAt }

end SetView

/-- The shreds of a set that arrived since it was last handed on or dropped. -/
def openArrivals (parse : List UInt8 → Option Shred) (startedAt : Instant) (key : FecSetKey)
    (past : List DeshredInput) : List Arrival :=
  (SetView.after parse key startedAt past).arrivals

/-- A packet brings a shred of the set, and with it the set's shreds are complete. -/
def CompletesAt (parse : List UInt8 → Option Shred) (startedAt : Instant) (key : FecSetKey)
    (past : List DeshredInput) (input : DeshredInput) : Prop :=
  ∃ shred, parse input.packet.bytes = some shred ∧ shred.key = key ∧
    Complete (openArrivals parse startedAt key past ++ [(input.packet.receivedAt, shred)])

/-! ## The tracker holds the open arrivals -/

/-- The state kept for a list of open arrivals. -/
def heldState (arrivals : List Arrival) : Option FecSetState :=
  if arrivals = [] then none else some (collect arrivals)

theorem getD_heldState (arrivals : List Arrival) :
    (heldState arrivals).getD {} = collect arrivals := by
  rw [heldState]
  split
  · next none =>
    rw [none]
    rfl
  · rfl

variable (codecs : ShredCodecs) (key : FecSetKey)

/-- A set of the loop is what a list of its arrivals leaves. -/
structure Holds (loop : DeshredLoop) (view : SetView) : Prop where
  sets : loop.tracker.sets.get key = heldState view.arrivals
  lastEvict : loop.lastEvict = view.lastEvict

variable {codecs key}

theorem Holds.entry {loop : DeshredLoop} {view : SetView} (holds : Holds key loop view) :
    loop.tracker.entry key = collect view.arrivals := by
  rw [FecTracker.entry, holds.sets, getD_heldState]

theorem Holds.receive {loop : DeshredLoop} {view : SetView} (holds : Holds key loop view)
    (input : DeshredInput) :
    (loop.receive codecs input).1.tracker.sets.get key =
      heldState (view.receive codecs.newFromSerializedShred key input.packet) := by
  rw [DeshredLoop.receive_tracker, FecTracker.ingest, SetView.receive]
  cases codecs.newFromSerializedShred input.packet.bytes with
  | none => exact holds.sets
  | some shred =>
    dsimp only
    rw [FecTracker.get_accept]
    by_cases own : shred.key = key
    · rw [if_pos own.symm, if_pos own, holds.entry]
      have noted := collect_concat view.arrivals (input.packet.receivedAt, shred)
      dsimp only at noted
      rw [← noted]
      by_cases complete : Complete (view.arrivals ++ [(input.packet.receivedAt, shred)])
      · rw [if_pos ((collect_dataComplete _).mpr complete), if_pos complete]
        rfl
      · rw [if_neg fun found => complete ((collect_dataComplete _).mp found), if_neg complete,
          heldState, if_neg (by simp)]
    · rw [if_neg (Ne.symm own), if_neg own]
      exact holds.sets

theorem filter_heldState (now : Instant) (arrivals : List Arrival) :
    (heldState arrivals).filter (FecSetState.alive now DeshredLoop.maxAge) =
      heldState (if TooOld now arrivals then [] else arrivals) := by
  by_cases none : arrivals = []
  · subst none
    simp [heldState]
  · rw [heldState, if_neg none, Option.filter_some]
    by_cases old : TooOld now arrivals
    · rw [if_pos old, if_neg fun young => (collect_alive now arrivals).mp young old]
      rfl
    · rw [if_neg old, if_pos ((collect_alive now arrivals).mpr old), heldState, if_neg none]

/-- **One turn of the loop is one turn of every set.** -/
theorem Holds.step {loop : DeshredLoop} {view : SetView} (holds : Holds key loop view)
    (input : DeshredInput) :
    Holds key (loop.step codecs input).1
      (view.step codecs.newFromSerializedShred key input) := by
  have received := @Holds.receive codecs key loop view holds input
  have clock : (loop.receive codecs input).1.lastEvict = view.lastEvict :=
    (loop.receive_lastEvict codecs input).trans holds.lastEvict
  rw [DeshredLoop.step, SetView.step, DeshredLoop.maintain]
  dsimp only
  rw [clock]
  split
  · refine ⟨?_, rfl⟩
    rw [FecTracker.get_evictOlderThan, received, filter_heldState]
  · exact ⟨received, clock⟩

theorem holds_after (startedAt : Instant) (inputs : List DeshredInput) :
    Holds key (DeshredLoop.after codecs startedAt inputs)
      (SetView.after codecs.newFromSerializedShred key startedAt inputs) := by
  induction inputs using List.reverseRecOn with
  | nil => exact ⟨HashTable.get_empty _, rfl⟩
  | append_singleton past input ih =>
    rw [DeshredLoop.after_concat, SetView.after, List.foldl_concat]
    exact ih.step input

/-! ## Every set once -/

section Once

variable (codecs : ShredCodecs) (startedAt : Instant)

/-- The turn hands on the set. -/
def Releases (key : FecSetKey) (past : List DeshredInput) (input : DeshredInput) : Prop :=
  ((DeshredLoop.after codecs startedAt past).released codecs input).any
    (fun ready => ready.key = key) = true

/-- The turn emits the entries of the set and moves the offset of its slot past them. -/
def Emits (key : FecSetKey) (past : List DeshredInput) (input : DeshredInput) : Prop :=
  ((DeshredLoop.after codecs startedAt past).released codecs input).any
    (fun ready => ready.key = key && (readEntries codecs ready).isSome) = true

instance (key : FecSetKey) (past : List DeshredInput) (input : DeshredInput) :
    Decidable (Releases codecs startedAt key past input) :=
  inferInstanceAs (Decidable (_ = true))

instance (key : FecSetKey) (past : List DeshredInput) (input : DeshredInput) :
    Decidable (Emits codecs startedAt key past input) :=
  inferInstanceAs (Decidable (_ = true))

/-- Every set is handed on at most once, and its entries are emitted at most once. -/
def CompletesOnce (inputs : List DeshredInput) : Prop :=
  ∀ key, countAfter (Releases codecs startedAt key) inputs ≤ 1 ∧
    countAfter (Emits codecs startedAt key) inputs ≤ 1

/-- A packet completes a set that was complete before. -/
def CompletesAgain (parse : List UInt8 → Option Shred) (past : List DeshredInput)
    (input : DeshredInput) : Prop :=
  ∃ key, CompletesAt parse startedAt key past input ∧
    ∃ before earlier after, past = before ++ earlier :: after ∧
      CompletesAt parse startedAt key before earlier

variable {codecs startedAt}

/-- **A turn hands on a set exactly when its packet completes the open arrivals of the
set.** -/
theorem releases_iff {key : FecSetKey} {past : List DeshredInput} {input : DeshredInput} :
    Releases codecs startedAt key past input ↔
      CompletesAt codecs.newFromSerializedShred startedAt key past input := by
  rw [Releases, CompletesAt, DeshredLoop.released, FecTracker.ingest]
  cases codecs.newFromSerializedShred input.packet.bytes with
  | none => simp
  | some shred =>
    dsimp only
    have entry := (@holds_after codecs shred.key startedAt past).entry
    have noted := collect_concat
      (openArrivals codecs.newFromSerializedShred startedAt shred.key past)
      (input.packet.receivedAt, shred)
    rw [openArrivals, ← entry] at noted
    have complete := collect_dataComplete
      (openArrivals codecs.newFromSerializedShred startedAt shred.key past ++
        [(input.packet.receivedAt, shred)])
    rw [openArrivals, noted] at complete
    rw [FecTracker.accept]
    constructor
    · intro released
      split at released
      · next found =>
        obtain rfl : shred.key = key := by
          simpa [FecSetState.ready, FecSetReady.key] using released
        exact ⟨shred, rfl, rfl, complete.mp found⟩
      · cases released
    · rintro ⟨_, same, rfl, found⟩
      obtain rfl := Option.some.inj same
      rw [if_pos (complete.mpr found)]
      simp [FecSetState.ready, FecSetReady.key]

theorem releases_of_emits {key : FecSetKey} (past : List DeshredInput) (input : DeshredInput)
    (emits : Emits codecs startedAt key past input) : Releases codecs startedAt key past input := by
  rw [Emits, Option.any_eq_true] at emits
  obtain ⟨ready, completed, own⟩ := emits
  rw [Bool.and_eq_true] at own
  rw [Releases, completed]
  exact own.1

/-- **Every FEC set is handed on at most once, and emitted at most once, exactly when no
packet completes a set that was complete before.** -/
theorem completesOnce_iff (codecs : ShredCodecs) (startedAt : Instant)
    (inputs : List DeshredInput) :
    CompletesOnce codecs startedAt inputs ↔
      EachAfter (fun past input =>
        ¬ CompletesAgain startedAt codecs.newFromSerializedShred past input) inputs := by
  constructor
  · rintro once before input after split ⟨key, complete, first, earlier, rest, past, already⟩
    have never := (countAfter_le_one _).mp (once key).1 before input after split
      (releases_iff.mpr complete)
    exact (countAfter_eq_zero _).mp never first earlier rest past (releases_iff.mpr already)
  · intro fresh key
    have released : countAfter (Releases codecs startedAt key) inputs ≤ 1 := by
      refine (countAfter_le_one _).mpr fun before input after split here => ?_
      refine (countAfter_eq_zero _).mpr fun first earlier rest past already => ?_
      exact fresh before input after split
        ⟨key, releases_iff.mp here, first, earlier, rest, past, releases_iff.mp already⟩
    exact ⟨released, (countAfter_mono _ releases_of_emits inputs).trans released⟩

/-! ### A set delivered twice -/

/-- The two data shreds of a set, and a packet for each. -/
def sampleShred (index : UInt32) : Shred where
  slot := 100
  fecSetIndex := 0
  index := index
  shredType := .data
  lastInSlot := false
  dataComplete := index = 1
  payload := []

def samplePacket (index : UInt8) : DeshredInput := ⟨⟨[index], 0⟩, 0, 0⟩

def sampleCodecs : ShredCodecs where
  newFromSerializedShred bytes := bytes.head?.map fun index => sampleShred index.toUInt32
  deshred _ := some []
  wincode _ := some [⟨64, Hash.default, []⟩]

/-- A set whose two shreds are delivered twice is handed on and emitted twice. -/
theorem redelivered_completesTwice :
    ¬ CompletesOnce sampleCodecs 0 ([0, 1, 0, 1].map samplePacket) := by
  intro once
  have twice :
      countAfter (Releases sampleCodecs 0 (100, 0)) ([0, 1, 0, 1].map samplePacket) = 2 := by
    decide +kernel
  have atMost := (once (100, 0)).1
  omega

end Once

end SenderAnalysis.ShredStream

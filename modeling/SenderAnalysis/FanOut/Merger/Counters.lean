import SenderAnalysis.FanOut.Merger.SlotIndex

/-!
# The merger's counters

The merger's effects are performed on its counters, which are unsigned numbers of 64
bits, and on its output channel, which accepts an entry or is full. The channel's
answer belongs to the arrival.

Every arrival has one outcome: it is the first of its entry, it confirms an entry of
the other source, or it is a duplicate. The ledger lists the outcomes. The counters
are what the ledger says, modulo `2 ^ 64` (`run_accounts`).
-/

set_option autoImplicit false

namespace SenderAnalysis.Merger

/-! ## Counters and output channel -/

/-- The cells that are shared with the reader of the statistics. -/
structure MergerCounters where
  ssReceived : Nat := 0
  ysReceived : Nat := 0
  ssFirst : Nat := 0
  ysFirst : Nat := 0
  confirmedByBoth : Nat := 0
  confirmLatencySumNs : Nat := 0
  confirmLatencyMinNs : Nat := 0
  confirmLatencyMaxNs : Nat := 0
  duplicates : Nat := 0
  outputFull : Nat := 0
deriving DecidableEq, Repr

namespace MergerCounters

def new : MergerCounters := { confirmLatencyMinNs := 2 ^ 64 - 1 }

/-- Change one cell. -/
def modify (counters : MergerCounters) (change : Nat → Nat) : Counter → MergerCounters
  | .ssReceived => { counters with ssReceived := change counters.ssReceived }
  | .ysReceived => { counters with ysReceived := change counters.ysReceived }
  | .ssFirst => { counters with ssFirst := change counters.ssFirst }
  | .ysFirst => { counters with ysFirst := change counters.ysFirst }
  | .confirmedByBoth => { counters with confirmedByBoth := change counters.confirmedByBoth }
  | .confirmLatencySumNs =>
      { counters with confirmLatencySumNs := change counters.confirmLatencySumNs }
  | .confirmLatencyMinNs =>
      { counters with confirmLatencyMinNs := change counters.confirmLatencyMinNs }
  | .confirmLatencyMaxNs =>
      { counters with confirmLatencyMaxNs := change counters.confirmLatencyMaxNs }
  | .duplicates => { counters with duplicates := change counters.duplicates }

/-- What the reader of the statistics gets: the least delay is shown as zero before the
first confirmation. -/
def snapshot (counters : MergerCounters) : MergerCounters :=
  { counters with
    confirmLatencyMinNs :=
      if counters.confirmedByBoth = 0 then 0 else counters.confirmLatencyMinNs }

end MergerCounters

/-- The merger with its counters and the entries its output channel took. -/
structure Machine where
  merger : State := {}
  counters : MergerCounters := .new
  put : List MergedEntry := []

/-- Perform one effect; an entry is offered to a channel that accepts it or is full. -/
def perform (accepts : Bool) (machine : Machine) : MergerEffect → Machine
  | .fetchAdd counter amount =>
      { machine with
        counters := machine.counters.modify (fun value => (value + amount) % 2 ^ 64) counter }
  | .fetchMin counter value =>
      { machine with counters := machine.counters.modify (fun held => min held value) counter }
  | .fetchMax counter value =>
      { machine with counters := machine.counters.modify (fun held => max held value) counter }
  | .trySend entry =>
      if accepts then { machine with put := machine.put ++ [entry] }
      else
        { machine with
          counters :=
            { machine.counters with outputFull := (machine.counters.outputFull + 1) % 2 ^ 64 } }

/-- A delivery, and whether the output channel has room. -/
abbrev Arrival := Delivery × Bool

def arrive (machine : Machine) (arrival : Arrival) : Machine :=
  let stepped := step machine.merger arrival.1
  stepped.2.foldl (perform arrival.2) { machine with merger := stepped.1 }

/-- The machine after a sequence of arrivals. -/
def run (arrivals : List Arrival) : Machine := arrivals.foldl arrive {}

/-! ## The ledger -/

/-- What an arrival turns out to be. -/
inductive Outcome where
  | first (accepted : Bool)
  | confirmation (deltaNs : Nat)
  | duplicate
deriving DecidableEq, Repr

/-- The outcome of an arrival, from what is remembered of its entry. -/
def outcome (known : Option DedupState) (arrival : Arrival) : Outcome :=
  match known with
  | none => .first arrival.2
  | some (.primary firstSource firstSeenAt) =>
      if firstSource ≠ arrival.1.2 then
        .confirmation
          (min (saturatingDurationSince arrival.1.1.observedAt firstSeenAt) (2 ^ 64 - 1))
      else .duplicate
  | some .confirmed => .duplicate

/-- Write down the outcome of an arrival. -/
def ledgerStep (merger : State) (arrival : Arrival) : State × List (Delivery × Outcome) :=
  ((step merger arrival.1).1,
    [(arrival.1, outcome (merger.state.get arrival.1.key) arrival)])

/-- The outcomes of a sequence of arrivals, from a state of the merger. -/
def ledgerFrom (merger : State) (arrivals : List Arrival) : List (Delivery × Outcome) :=
  (runAll ledgerStep merger arrivals).2

def ledger (arrivals : List Arrival) : List (Delivery × Outcome) := ledgerFrom {} arrivals

/-- The delay of a confirmation. -/
def Outcome.sample? : Outcome → Option Nat
  | confirmation deltaNs => some deltaNs
  | first _ | duplicate => none

def Outcome.isFirst : Outcome → Bool
  | first _ => true
  | confirmation _ | duplicate => false

namespace Outcome

@[simp] theorem sample?_first (accepted : Bool) : (first accepted).sample? = none := rfl

@[simp] theorem sample?_confirmation (deltaNs : Nat) :
    (confirmation deltaNs).sample? = some deltaNs := rfl

@[simp] theorem sample?_duplicate : duplicate.sample? = none := rfl

@[simp] theorem isFirst_first (accepted : Bool) : (first accepted).isFirst = true := rfl

@[simp] theorem isFirst_confirmation (deltaNs : Nat) :
    (confirmation deltaNs).isFirst = false := rfl

@[simp] theorem isFirst_duplicate : duplicate.isFirst = false := rfl

end Outcome

/-- The recorded delays. -/
def samples (entries : List (Delivery × Outcome)) : List Nat :=
  entries.filterMap fun entry => entry.2.sample?

/-- How many of the ledger's entries pass a test on their source and outcome. -/
def tally (entries : List (Delivery × Outcome)) (test : SourceKind → Outcome → Bool) : Nat :=
  entries.countP fun entry => test entry.1.2 entry.2

theorem tally_concat (entries : List (Delivery × Outcome)) (entry : Delivery × Outcome)
    (test : SourceKind → Outcome → Bool) :
    tally (entries ++ [entry]) test =
      tally entries test + if test entry.1.2 entry.2 then 1 else 0 := by
  rw [tally, List.countP_append, List.countP_singleton]
  rfl

theorem samples_concat (entries : List (Delivery × Outcome)) (entry : Delivery × Outcome) :
    samples (entries ++ [entry]) = samples entries ++ entry.2.sample?.toList := by
  rw [samples, List.filterMap_append]
  cases found : entry.2.sample? <;> simp [found, samples]

/-! ## The counters are what the ledger says -/

/-- What an arrival adds to the counters, by its source and its outcome. -/
def MergerCounters.note (counters : MergerCounters) (source : SourceKind) (result : Outcome) :
    MergerCounters :=
  let add (counter : Counter) (amount : Nat) (counters : MergerCounters) : MergerCounters :=
    counters.modify (fun value => (value + amount) % 2 ^ 64) counter
  let received :=
    match source with
    | .shredStream => add .ssReceived 1 counters
    | .yellowstone => add .ysReceived 1 counters
  match result with
  | .first accepted =>
      let counted :=
        match source with
        | .shredStream => add .ssFirst 1 received
        | .yellowstone => add .ysFirst 1 received
      if accepted then counted
      else { counted with outputFull := (counted.outputFull + 1) % 2 ^ 64 }
  | .confirmation deltaNs =>
      ((add .confirmLatencySumNs deltaNs (add .confirmedByBoth 1 received)).modify
        (fun held => min held deltaNs) .confirmLatencyMinNs).modify
        (fun held => max held deltaNs) .confirmLatencyMaxNs
  | .duplicate => add .duplicates 1 received

/-- **The machine notes the outcome of every arrival.** -/
theorem arrive_notes (machine : Machine) (arrival : Arrival) :
    (arrive machine arrival).counters =
        machine.counters.note arrival.1.2
          (outcome (machine.merger.state.get arrival.1.key) arrival) ∧
      (arrive machine arrival).put = machine.put ++
        if outcome (machine.merger.state.get arrival.1.key) arrival = .first true then
          [⟨arrival.1.1, arrival.1.2⟩] else [] := by
  obtain ⟨⟨observation, source⟩, accepts⟩ := arrival
  rcases deduplicate_cases machine.merger (observation, source) with
    ⟨unknown, result⟩ | ⟨firstSource, firstSeenAt, known, other, result⟩ |
      ⟨remembered, known, same, result⟩
  · rw [unknown, arrive, step, process, result]
    cases source <;> cases accepts <;> exact ⟨rfl, by simp [perform, outcome]; rfl⟩
  · have confirms : outcome (some (.primary firstSource firstSeenAt))
        ((observation, source), accepts) = .confirmation (min
          (saturatingDurationSince observation.observedAt firstSeenAt) (2 ^ 64 - 1)) := by
      simp only [outcome, if_pos other]
    rw [known, arrive, step, process, result, confirms]
    cases source <;> exact ⟨rfl, by simp [perform, recordConfirmLatency]; rfl⟩
  · have repeats : outcome (some remembered) ((observation, source), accepts) = .duplicate := by
      cases remembered with
      | confirmed => rfl
      | primary firstSource firstSeenAt =>
        by_cases other : firstSource ≠ source
        · simp [sighted, other] at same
        · simp only [outcome, if_neg other]
    rw [known, arrive, step, process, result, repeats]
    cases source <;> exact ⟨rfl, by simp [perform]; rfl⟩

theorem arrive_merger (machine : Machine) (arrival : Arrival) :
    (arrive machine arrival).merger = (step machine.merger arrival.1).1 := by
  have same : ∀ (effects : List MergerEffect) (machine : Machine),
      (effects.foldl (perform arrival.2) machine).merger = machine.merger := by
    intro effects
    induction effects with
    | nil => intro machine; rfl
    | cons effect rest ih =>
      intro machine
      rw [List.foldl_cons, ih]
      cases effect with
      | trySend entry => cases accepts : arrival.2 <;> rfl
      | fetchAdd | fetchMin | fetchMax => rfl
  exact same _ _

/-- The counts of a machine and its output, as told by a ledger. -/
structure Tallied (machine : Machine) (entries : List (Delivery × Outcome)) : Prop where
  ssReceived : machine.counters.ssReceived =
    tally entries (fun source _ => source = .shredStream) % 2 ^ 64
  ysReceived : machine.counters.ysReceived =
    tally entries (fun source _ => source = .yellowstone) % 2 ^ 64
  ssFirst : machine.counters.ssFirst =
    tally entries (fun source result => decide (source = .shredStream) && result.isFirst) % 2 ^ 64
  ysFirst : machine.counters.ysFirst =
    tally entries (fun source result => decide (source = .yellowstone) && result.isFirst) % 2 ^ 64
  confirmed : machine.counters.confirmedByBoth = (samples entries).length % 2 ^ 64
  duplicates : machine.counters.duplicates =
    tally entries (fun _ result => result = .duplicate) % 2 ^ 64
  outputFull : machine.counters.outputFull =
    tally entries (fun _ result => result = .first false) % 2 ^ 64
  put : machine.put.length = tally entries (fun _ result => result = .first true)

/-- The delays of a machine, as told by a ledger. -/
structure Timed (machine : Machine) (entries : List (Delivery × Outcome)) : Prop where
  sum : machine.counters.confirmLatencySumNs = (samples entries).sum % 2 ^ 64
  least : ∀ sample ∈ samples entries, machine.counters.confirmLatencyMinNs ≤ sample
  greatest : ∀ sample ∈ samples entries, sample ≤ machine.counters.confirmLatencyMaxNs

section Arrivals

variable {machine : Machine} {entries : List (Delivery × Outcome)}

theorem tallied_initial : Tallied {} [] := by
  constructor <;> rfl

theorem timed_initial : Timed {} [] where
  sum := rfl
  least := by simp [samples]
  greatest := by simp [samples]

theorem Tallied.arrive (tallied : Tallied machine entries) (arrival : Arrival) :
    Tallied (arrive machine arrival) (entries ++
      [(arrival.1, outcome (machine.merger.state.get arrival.1.key) arrival)]) := by
  obtain ⟨counters, put⟩ := arrive_notes machine arrival
  obtain ⟨⟨observation, source⟩, accepts⟩ := arrival
  constructor
  all_goals first | rw [counters] | rw [put]
  -- one goal for every field, each with the outcomes and the sources
  all_goals
    rcases outcome _ _ with (_ | _) | deltaNs | _ <;> cases source <;>
      simp [MergerCounters.note, MergerCounters.modify, tally_concat, samples_concat,
        tallied.ssReceived, tallied.ysReceived, tallied.ssFirst, tallied.ysFirst,
        tallied.confirmed, tallied.duplicates, tallied.outputFull, tallied.put]

theorem Timed.arrive (timed : Timed machine entries) (arrival : Arrival) :
    Timed (arrive machine arrival) (entries ++
      [(arrival.1, outcome (machine.merger.state.get arrival.1.key) arrival)]) := by
  obtain ⟨counters, _⟩ := arrive_notes machine arrival
  obtain ⟨⟨observation, source⟩, accepts⟩ := arrival
  cases result : outcome (machine.merger.state.get _) _ with
  | first accepted =>
    rw [result] at counters
    have silent : samples (entries ++ [((observation, source), .first accepted)]) =
        samples entries := by
      simp [samples_concat]
    constructor <;> rw [silent, counters] <;> cases source <;> cases accepted
    all_goals first | exact timed.sum | exact timed.least | exact timed.greatest
  | duplicate =>
    rw [result] at counters
    have silent : samples (entries ++ [((observation, source), .duplicate)]) =
        samples entries := by
      simp [samples_concat]
    constructor <;> rw [silent, counters] <;> cases source
    all_goals first | exact timed.sum | exact timed.least | exact timed.greatest
  | confirmation deltaNs =>
    rw [result] at counters
    have recorded : samples (entries ++ [((observation, source), .confirmation deltaNs)]) =
        samples entries ++ [deltaNs] := by
      simp [samples_concat]
    have sum : (machine.counters.note source (.confirmation deltaNs)).confirmLatencySumNs =
        (machine.counters.confirmLatencySumNs + deltaNs) % 2 ^ 64 := by
      cases source <;> rfl
    have least : (machine.counters.note source (.confirmation deltaNs)).confirmLatencyMinNs =
        min machine.counters.confirmLatencyMinNs deltaNs := by
      cases source <;> rfl
    have greatest : (machine.counters.note source (.confirmation deltaNs)).confirmLatencyMaxNs =
        max machine.counters.confirmLatencyMaxNs deltaNs := by
      cases source <;> rfl
    refine ⟨?_, ?_, ?_⟩
    · rw [recorded, counters, sum, timed.sum]
      simp
    · intro sample member
      rw [counters, least]
      rcases List.mem_append.mp (recorded ▸ member) with old | new
      · have bound := timed.least sample old
        omega
      · have same : sample = deltaNs := by simpa using new
        omega
    · intro sample member
      rw [counters, greatest]
      rcases List.mem_append.mp (recorded ▸ member) with old | new
      · have bound := timed.greatest sample old
        omega
      · have same : sample = deltaNs := by simpa using new
        omega

end Arrivals

theorem run_concat (past : List Arrival) (arrival : Arrival) :
    run (past ++ [arrival]) = arrive (run past) arrival := by
  simp [run]

theorem run_merger (arrivals : List Arrival) :
    (run arrivals).merger = (runAll ledgerStep {} arrivals).1 := by
  induction arrivals using List.reverseRecOn with
  | nil => rfl
  | append_singleton past arrival ih =>
    rw [run_concat, arrive_merger, runAll_concat, ih]
    rfl

theorem ledger_concat (past : List Arrival) (arrival : Arrival) :
    ledger (past ++ [arrival]) = ledger past ++
      [(arrival.1, outcome ((run past).merger.state.get arrival.1.key) arrival)] := by
  rw [ledger, ledgerFrom, runAll_concat, run_merger]
  rfl

/-- **The counters and the output are what the ledger says.** -/
theorem run_accounts (arrivals : List Arrival) :
    Tallied (run arrivals) (ledger arrivals) ∧ Timed (run arrivals) (ledger arrivals) := by
  induction arrivals using List.reverseRecOn with
  | nil => exact ⟨tallied_initial, timed_initial⟩
  | append_singleton past arrival ih =>
    rw [run_concat, ledger_concat]
    exact ⟨ih.1.arrive arrival, ih.2.arrive arrival⟩

end SenderAnalysis.Merger

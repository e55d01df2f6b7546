import SenderAnalysis.FanOut.Senders.Model
import SenderAnalysis.Foundations.Runs
import SenderAnalysis.Foundations.Traces

/-!
# The throttle under concurrent sends

The calls of one sender share the time of its last send. A call reads the clock before it
takes the lock, so a call that read the clock first can take the lock last. An interval
from a later instant is zero, hence a call that finds the last send ahead of its own clock
is throttled.

In any interleaving, the times of the admitted calls increase in the order of the lock, and
by at least the interval (`admitted_spaced`). The last one admitted is therefore the latest
one, and it is what throttles a call.
-/

set_option autoImplicit false

namespace SenderAnalysis.Senders

/-- Jito writes the throttle out inside the test for an interval. -/
def throttledInline (last : Option Instant) (now : Instant) (interval : Duration) : Bool :=
  match last with
  | some prev => saturatingDurationSince now prev < interval
  | none => false

theorem throttled_eq_inline {interval : Duration} (positive : 0 < interval)
    (last : Option Instant) (now : Instant) :
    throttled last now interval = throttledInline last now interval := by
  cases last <;> simp [throttled, throttledInline, positive]

/-- A call is throttled by a last send that is later, or less than the interval ago. -/
theorem throttled_iff {interval : Duration} (positive : 0 < interval) {last : Option Instant}
    {now : Instant} :
    throttled last now interval = true ↔
      ∃ prev, last = some prev ∧ (now < prev ∨ prev ≤ now ∧ now - prev < interval) := by
  rw [throttled_eq_inline positive]
  cases last with
  | none => exact ⟨fun never => (by cases never), fun ⟨_, never, _⟩ => (by cases never)⟩
  | some prev =>
    have arithmetic : ∀ now prev interval : Nat, 0 < interval →
        (now - prev < interval ↔ now < prev ∨ prev ≤ now ∧ now - prev < interval) := by
      omega
    refine decide_eq_true_iff.trans ((arithmetic now prev interval positive).trans ?_)
    constructor
    · intro near
      exact ⟨prev, rfl, near⟩
    · rintro ⟨_, same, near⟩
      cases same
      exact near

/-- An admitted call is at least the interval after the last send. -/
theorem le_of_not_throttled {interval : Duration} (positive : 0 < interval) {prev now : Instant}
    (admitted : throttled (some prev) now interval = false) : prev + interval ≤ now := by
  have arithmetic : ∀ now prev interval : Nat, 0 < interval → ¬ now - prev < interval →
      prev + interval ≤ now := by
    omega
  rw [throttled_eq_inline positive] at admitted
  exact arithmetic now prev interval positive (of_decide_eq_false admitted)

/-! ## Senders with a throttle -/

/-- A sender, as its throttle sees it: what a call with its time does to the last send.
A throttled call leaves it, and any other takes its place. -/
structure PacedSend (κ : Type) where
  interval : Duration
  signature : κ → Signature
  send : Option Instant → Instant → κ → Option Instant × SendOutcome
  throttles : ∀ last now call, throttled last now interval = true →
    send last now call = (last, throttledLocal now (signature call))
  admits : ∀ last now call, throttled last now interval = false → 0 < interval →
    (send last now call).1 = some now

/-- A multi-region sender is paced. -/
def Sender.paced {α : Type} (sender : Sender α) : PacedSend (Call α) where
  interval := sender.minSendInterval
  signature := Call.signature
  send last now call := sender.send last { call with now := now }
  throttles last now call held := by simp only [Sender.send, held, if_true]
  admits last now call free positive := by
    simp only [Sender.send, free, if_pos positive]
    split
    · cases ‹false = true›
    · split
      · rfl
      · split <;> rfl

/-! ## Interleavings -/

namespace Throttle

variable {κ : Type}

/-- A call reads the clock, or takes the lock. -/
inductive Act (κ : Type) where
  | read (caller : Nat) (now : Instant)
  | enter (caller : Nat) (call : κ)

/-- The last send, and the times of the calls that wait for the lock. -/
structure State where
  waiting : HashTable Nat Instant := .empty
  last : Option Instant := none

/-- What becomes of a call that has the lock. -/
structure Decision where
  now : Instant
  admitted : Bool
  outcome : SendOutcome
deriving DecidableEq, Repr

def step (sender : PacedSend κ) (state : State) : Act κ → State × List Decision
  | .read caller now =>
      if (state.waiting.get caller).isSome then (state, [])
      else ({ state with waiting := state.waiting.insert caller now }, [])
  | .enter caller call =>
      match state.waiting.get caller with
      | none => (state, [])
      | some now =>
          let sent := sender.send state.last now call
          ({ waiting := state.waiting.remove caller, last := sent.1 },
            [⟨now, !throttled state.last now sender.interval, sent.2⟩])

def run (sender : PacedSend κ) (acts : List (Act κ)) : State × List Decision :=
  runAll (step sender) {} acts

/-- The times of the admitted calls, in the order of the lock. -/
def admittedAt (decisions : List Decision) : List Instant :=
  (decisions.filter Decision.admitted).map Decision.now

@[simp] theorem admittedAt_append (first second : List Decision) :
    admittedAt (first ++ second) = admittedAt first ++ admittedAt second := by
  simp [admittedAt]

/-- A decision after others: a call that is not admitted is answered at once, and is held by
the last admitted one. -/
structure Sound (interval : Duration) (past : List Decision) (decision : Decision) : Prop where
  answer : decision.admitted = false →
    ∃ signature, decision.outcome = throttledLocal decision.now signature
  held : decision.admitted = false → ∃ prev, (admittedAt past).getLast? = some prev ∧
    (decision.now < prev ∨ prev ≤ decision.now ∧ decision.now - prev < interval)
  spaced : decision.admitted = true → ∀ earlier ∈ admittedAt past,
    earlier + interval ≤ decision.now

variable {sender : PacedSend κ}

/-- The last send is the last admitted call, and no admitted call is later. -/
structure Tracks (decisions : List Decision) (state : State) : Prop where
  last : state.last = (admittedAt decisions).getLast?
  latest : ∀ earlier ∈ admittedAt decisions, ∃ prev, state.last = some prev ∧ earlier ≤ prev

theorem decide_sound (positive : 0 < sender.interval) {past : List Decision} {state : State}
    (tracks : Tracks past state) (now : Instant) (call : κ) :
    Sound sender.interval past
      ⟨now, !throttled state.last now sender.interval, (sender.send state.last now call).2⟩ := by
  refine ⟨?_, ?_, ?_⟩
  · intro held
    have held : throttled state.last now sender.interval = true := by simpa using held
    exact ⟨sender.signature call, by rw [sender.throttles _ _ _ held]⟩
  · intro held
    obtain ⟨prev, last, near⟩ := (throttled_iff positive).mp (by simpa using held)
    exact ⟨prev, tracks.last ▸ last, near⟩
  · intro admitted earlier member
    obtain ⟨prev, last, ordered⟩ := tracks.latest earlier member
    have free : throttled (some prev) now sender.interval = false := by
      rw [← last]
      simpa using admitted
    exact (Nat.add_le_add_right ordered _).trans (le_of_not_throttled positive free)

theorem decide_tracks (positive : 0 < sender.interval) {past : List Decision} {state : State}
    (tracks : Tracks past state) (now : Instant) (call : κ) (waiting : HashTable Nat Instant) :
    Tracks (past ++ [⟨now, !throttled state.last now sender.interval,
        (sender.send state.last now call).2⟩])
      { waiting := waiting, last := (sender.send state.last now call).1 } := by
  have sound := decide_sound positive tracks now call
  cases held : throttled state.last now sender.interval with
  | true =>
    have same : (sender.send state.last now call).1 = state.last := by
      rw [sender.throttles _ _ _ held]
    refine ⟨?_, ?_⟩ <;> simp only [admittedAt_append, same]
    · simpa [admittedAt] using tracks.last
    · simpa [admittedAt] using tracks.latest
  | false =>
    have next := sender.admits _ _ call held positive
    rw [held] at sound
    refine ⟨?_, ?_⟩ <;> simp only [admittedAt_append, next]
    · simp [admittedAt]
    · intro earlier member
      refine ⟨now, rfl, ?_⟩
      obtain before | own := List.mem_append.mp member
      · exact (Nat.le_add_right _ _).trans (sound.spaced rfl earlier before)
      · simp only [admittedAt, Bool.not_false, List.filter_cons_of_pos, List.filter_nil,
          List.map_cons, List.map_nil, List.mem_singleton] at own
        exact Nat.le_of_eq own

theorem run_concat (sender : PacedSend κ) (past : List (Act κ)) (act : Act κ) :
    run sender (past ++ [act]) =
      ((step sender (run sender past).1 act).1,
        (run sender past).2 ++ (step sender (run sender past).1 act).2) := by
  unfold run
  rw [runAll_concat]

theorem run_tracks (positive : 0 < sender.interval) (acts : List (Act κ)) :
    Tracks (run sender acts).2 (run sender acts).1 ∧
      EachAfter (Sound sender.interval) (run sender acts).2 := by
  induction acts using List.reverseRecOn with
  | nil => exact ⟨⟨rfl, fun _ absent => (by cases absent)⟩, eachAfter_nil _⟩
  | append_singleton past act ih =>
    obtain ⟨tracks, sound⟩ := ih
    have idle : ∀ waiting, Tracks ((run sender past).2 ++ [])
        { waiting := waiting, last := (run sender past).1.last } := by
      intro waiting
      rw [List.append_nil]
      exact ⟨tracks.last, tracks.latest⟩
    have same : EachAfter (Sound sender.interval) ((run sender past).2 ++ []) := by
      rwa [List.append_nil]
    rw [run_concat]
    cases act with
    | read caller now =>
      simp only [step]
      split
      · exact ⟨idle _, same⟩
      · exact ⟨idle _, same⟩
    | enter caller call =>
      simp only [step]
      split
      · exact ⟨idle _, same⟩
      · next now _ =>
        exact ⟨decide_tracks positive tracks now call _,
          eachAfter_concat.mpr ⟨sound, decide_sound positive tracks now call⟩⟩

/-- The times of the admitted calls are pairwise apart when each decision is sound. -/
theorem pairwise_of_sound {interval : Duration} {decisions : List Decision}
    (sound : EachAfter (Sound interval) decisions) :
    (admittedAt decisions).Pairwise fun earlier later => earlier + interval ≤ later := by
  induction decisions using List.reverseRecOn with
  | nil => exact List.Pairwise.nil
  | append_singleton past decision ih =>
    obtain ⟨before, last⟩ := eachAfter_concat.mp sound
    rw [admittedAt_append]
    cases admitted : decision.admitted with
    | false => simpa [admittedAt, admitted] using ih before
    | true =>
      refine List.pairwise_append.mpr ⟨ih before, ?_, ?_⟩
      · simp [admittedAt, admitted]
      · intro earlier member later own
        have same : later = decision.now := by simpa [admittedAt, admitted] using own
        rw [same]
        exact last.spaced admitted earlier member

/-- The decisions of a paced sender with an interval. -/
theorem run_spaced (sender : PacedSend κ) (positive : 0 < sender.interval)
    (acts : List (Act κ)) :
    ((admittedAt (run sender acts).2).Pairwise fun earlier later =>
        earlier + sender.interval ≤ later) ∧
      ∀ past decision rest, (run sender acts).2 = past ++ decision :: rest →
        decision.admitted = false →
          (∃ signature, decision.outcome = throttledLocal decision.now signature) ∧
            ∃ prev, (admittedAt past).getLast? = some prev ∧
              (decision.now < prev ∨
                prev ≤ decision.now ∧ decision.now - prev < sender.interval) := by
  have sound := (run_tracks positive acts).2
  refine ⟨pairwise_of_sound sound, ?_⟩
  intro past decision rest split held
  have last := sound past decision rest split
  exact ⟨last.answer held, last.held held⟩

end Throttle

/-- In every interleaving of the calls of a sender with an interval, the times of two
admitted calls are at least the interval apart. A throttled call is answered at once, and
finds the last admitted one later than its own time or less than the interval before it. -/
theorem admitted_spaced {α : Type} (sender : Sender α) (positive : 0 < sender.minSendInterval)
    (acts : List (Throttle.Act (Call α))) :
    ((Throttle.admittedAt (Throttle.run sender.paced acts).2).Pairwise fun earlier later =>
        earlier + sender.minSendInterval ≤ later) ∧
      ∀ past decision rest, (Throttle.run sender.paced acts).2 = past ++ decision :: rest →
        decision.admitted = false →
          (∃ signature, decision.outcome = throttledLocal decision.now signature) ∧
            ∃ prev, (Throttle.admittedAt past).getLast? = some prev ∧
              (decision.now < prev ∨
                prev ≤ decision.now ∧ decision.now - prev < sender.minSendInterval) :=
  Throttle.run_spaced sender.paced positive acts

/-- A call of a sender whose regions do not answer. -/
def silentCall : Call (Except String Unit) where
  now := 0
  sendAt := 0
  signature := Vector.replicate 64 7
  bytes := 300
  arrivals := []

/-- Three calls, of which the second takes the lock first and the last comes a second after
it. -/
def outOfOrder : List (Throttle.Act (Call (Except String Unit))) :=
  [.read 1 500, .read 2 1000, .enter 2 silentCall, .enter 1 silentCall, .read 1 1000001000,
    .enter 1 silentCall]

/-- The first call finds the second, which is later, and is throttled. -/
theorem admitted_spaced_outOfOrder :
    let sender := bloxrouteQuic 1000000000 ["host"] "quic://host"
    let decisions := (Throttle.run sender.paced outOfOrder).2
    decisions.map Throttle.Decision.admitted = [true, false, true] ∧
      ((Throttle.admittedAt decisions).Pairwise fun earlier later =>
        earlier + sender.minSendInterval ≤ later) ∧
      ∀ past decision rest, decisions = past ++ decision :: rest → decision.admitted = false →
        (∃ signature, decision.outcome = throttledLocal decision.now signature) ∧
          ∃ prev, (Throttle.admittedAt past).getLast? = some prev ∧
            (decision.now < prev ∨
              prev ≤ decision.now ∧ decision.now - prev < sender.minSendInterval) :=
  ⟨rfl, admitted_spaced _ (by decide) outOfOrder⟩

end SenderAnalysis.Senders

import SenderAnalysis.FanOut.Senders.Model
import SenderAnalysis.FanOut.Recorder.Landings

/-!
# The verdict of a multi-region send

A call that reaches its regions reports an error or not. bloXroute over QUIC reports none
exactly when some region accepted, whatever the order of the answers. The senders that
race the first reply report none exactly when the first answer to arrive is a success, so
a fast rejection masks an acceptance that comes later: they spare an accepted transaction
exactly when the first answer accepts or none does (`send_verdicts`). The recorder keeps an
attempt open exactly when its send reports no error, so an attempt that is not spared is
closed although its transaction may land.
-/

set_option autoImplicit false

namespace SenderAnalysis.Senders

variable {α : Type} {sender : Sender α} {last : Option Instant} {call : Call α}

/-- The call is not throttled, there are regions, and nothing keeps it from sending. -/
def Sender.Sends (sender : Sender α) (last : Option Instant) (call : Call α) : Prop :=
  throttled last call.now sender.minSendInterval = false ∧ sender.hosts ≠ [] ∧
    sender.refuses call = none

theorem send_of_sends (sends : sender.Sends last call) :
    (sender.send last call).2 =
      sender.verdict call.sendAt call.signature (call.arrivals.map sender.replyOf) := by
  obtain ⟨pace, regions, free⟩ := sends
  simp [Sender.send, pace, regions, free]

/-! ## One reply -/

variable {sendAt : Instant} {signature : Signature}

theorem outcomeOf_error (reply : FanoutReply) :
    (outcomeOf sendAt signature reply).error = none ↔ reply.isSuccess := by
  cases reply <;> simp [outcomeOf, FanoutReply.isSuccess]

theorem jitoOutcome_error (reply : FanoutReply) :
    (jitoOutcome sendAt signature reply).error = none ↔ reply.isSuccess := by
  cases reply <;> simp [jitoOutcome, outcomeOf, FanoutReply.isSuccess]

theorem bloxrouteOutcome_error (parseSignature : String → Option Signature)
    (reply : FanoutReply) :
    (bloxrouteOutcome parseSignature sendAt signature reply).error = none ↔
      reply.isSuccess := by
  cases reply <;> simp [bloxrouteOutcome, outcomeOf, FanoutReply.isSuccess]

/-! ## Which replies decide -/

/-- The first answer to arrive is a success. -/
def FirstAccepts (sender : Sender α) (call : Call α) : Prop :=
  ∃ arrival, call.arrivals.head? = some arrival ∧ (sender.replyOf arrival).isSuccess

/-- Some region accepted. -/
def SomeAccepts (sender : Sender α) (call : Call α) : Prop :=
  ∃ arrival ∈ call.arrivals, (sender.replyOf arrival).isSuccess

/-- Every answer is a success. -/
def AllAccept (sender : Sender α) (call : Call α) : Prop :=
  ∀ arrival ∈ call.arrivals, (sender.replyOf arrival).isSuccess

/-- What is asked of a call: it reports no error if some region accepted. -/
def Spares (sender : Sender α) (last : Option Instant) (call : Call α) : Prop :=
  SomeAccepts sender call → (sender.send last call).2.error = none

/-- Whether the call reports an error does not depend on the order of its answers. -/
def OrderFree (sender : Sender α) (last : Option Instant) (call : Call α) : Prop :=
  ∀ arrivals, arrivals.Perm call.arrivals →
    ((sender.send last { call with arrivals := arrivals }).2.error = none ↔
      (sender.send last call).2.error = none)

/-- How a call of a sender that races the first reply turns out: when it reports no error,
when it spares what a region accepted, and when its verdict does not depend on the order. -/
structure RaceVerdict (sender : Sender α) (last : Option Instant) (call : Call α) : Prop where
  error : (sender.send last call).2.error = none ↔ FirstAccepts sender call
  spares : Spares sender last call ↔ FirstAccepts sender call ∨ ¬ SomeAccepts sender call
  orderFree : OrderFree sender last call ↔ AllAccept sender call ∨ ¬ SomeAccepts sender call

theorem SomeAccepts.of_first (first : FirstAccepts sender call) : SomeAccepts sender call := by
  obtain ⟨arrival, head, accepts⟩ := first
  exact ⟨arrival, List.mem_of_mem_head? head, accepts⟩

/-- Which region answers first is a matter of the order: any answer can be put first. -/
theorem exists_perm_first {arrival : Arrival α} (member : arrival ∈ call.arrivals) :
    ∃ rest, (arrival :: rest).Perm call.arrivals := by
  obtain ⟨before, since, split⟩ := List.append_of_mem member
  exact ⟨before ++ since, split ▸ List.perm_middle.symm⟩

/-- A verdict that is decided by the first answer does not depend on the order exactly when
the answers agree. -/
theorem orderFree_iff_of_error
    (decides : ∀ arrivals, arrivals.Perm call.arrivals →
      ((sender.send last { call with arrivals := arrivals }).2.error = none ↔
        FirstAccepts sender { call with arrivals := arrivals })) :
    OrderFree sender last call ↔ AllAccept sender call ∨ ¬ SomeAccepts sender call := by
  have here := decides call.arrivals (.refl _)
  constructor
  · intro free
    by_cases some : SomeAccepts sender call
    · obtain ⟨accepting, member, accepts⟩ := some
      refine .inl fun arrival member' => ?_
      -- An acceptance that is put first makes every order report no error.
      obtain ⟨rest, perm⟩ := exists_perm_first member
      have none' : (sender.send last call).2.error = none :=
        (free _ perm).mp ((decides _ perm).mpr ⟨accepting, rfl, accepts⟩)
      obtain ⟨rest', perm'⟩ := exists_perm_first member'
      obtain ⟨first, head, success⟩ := (decides _ perm').mp ((free _ perm').mpr none')
      cases head
      exact success
    · exact .inr some
  · rintro (all | refused) arrivals perm
    · rw [decides _ perm, here]
      cases split : call.arrivals with
      | nil =>
        rw [split] at perm
        simp [FirstAccepts, perm.eq_nil]
      | cons first others =>
        have nonempty : arrivals ≠ [] := by
          rintro rfl
          exact List.cons_ne_nil _ _ (split ▸ perm.symm).eq_nil
        obtain ⟨head, tail, rfl⟩ := List.exists_cons_of_ne_nil nonempty
        refine iff_of_true ⟨head, rfl, all head (perm.mem_iff.mp (List.mem_cons_self ..))⟩
          ⟨first, by simp, all first (split ▸ List.mem_cons_self ..)⟩
    · rw [decides _ perm, here]
      refine iff_of_false (fun first => ?_) fun first => refused (.of_first first)
      obtain ⟨arrival, member, accepts⟩ := SomeAccepts.of_first first
      exact refused ⟨arrival, perm.mem_iff.mp member, accepts⟩

/-- A sender that races the first reply reports no error exactly when the first answer is
a success. -/
theorem raceFirst_error {outcome : Instant → Signature → FanoutReply → SendOutcome}
    (faithful : ∀ sendAt signature reply,
      (outcome sendAt signature reply).error = none ↔ reply.isSuccess)
    (races : sender.verdict = raceFirst outcome) (sends : sender.Sends last call) :
    (sender.send last call).2.error = none ↔ FirstAccepts sender call := by
  rw [send_of_sends sends, races, FirstAccepts]
  cases call.arrivals with
  | nil => simp [raceFirst, dropped, noReply]
  | cons first rest => simp [raceFirst, faithful]

/-- What a sender that races the first reply makes of a call. -/
theorem raceVerdict {outcome : Instant → Signature → FanoutReply → SendOutcome}
    (faithful : ∀ sendAt signature reply,
      (outcome sendAt signature reply).error = none ↔ reply.isSuccess)
    (races : sender.verdict = raceFirst outcome) (free : ∀ call, sender.refuses call = none)
    (sends : sender.Sends last call) : RaceVerdict sender last call := by
  have decides := raceFirst_error faithful races sends
  refine ⟨decides, ?_, ?_⟩
  · rw [Spares, decides]
    constructor
    · intro spared
      by_cases some : SomeAccepts sender call
      · exact .inl (spared some)
      · exact .inr some
    · rintro (first | refused) some
      · exact first
      · exact absurd some refused
  · refine orderFree_iff_of_error fun arrivals _ => ?_
    exact raceFirst_error faithful races ⟨sends.1, sends.2.1, free _⟩

/-- The first success of the list decides, whatever was seen before it. -/
theorem takeFirstSuccess_error (replies : List FanoutReply) {lastErr : Option FanoutReply}
    (failed : ∀ reply, lastErr = some reply → reply.isSuccess = false) :
    (takeFirstSuccess sendAt signature lastErr replies).error = none ↔
      ∃ reply ∈ replies, reply.isSuccess := by
  induction replies generalizing lastErr with
  | nil =>
    cases lastErr with
    | none => simp [takeFirstSuccess, dropped, noReply]
    | some reply => simp [takeFirstSuccess, outcomeOf_error, failed reply rfl]
  | cons reply rest ih =>
    cases reply with
    | success => simp [takeFirstSuccess, outcomeOf_error, FanoutReply.isSuccess]
    | error host sendAckAt httpStatus rpcErrCode rpcErrMessage error =>
      rw [takeFirstSuccess, ih fun _ same => by cases same; rfl]
      simp [FanoutReply.isSuccess]

theorem bloxrouteQuic_error {interval : Duration} {hosts : List String} {endpoint : String}
    {call : Call (Except String Unit)}
    (sends : (bloxrouteQuic interval hosts endpoint).Sends last call) :
    ((bloxrouteQuic interval hosts endpoint).send last call).2.error = none ↔
      SomeAccepts (bloxrouteQuic interval hosts endpoint) call := by
  rw [send_of_sends sends]
  refine (takeFirstSuccess_error _ (fun _ same => by cases same)).trans ?_
  simp [SomeAccepts]

/-- Over QUIC the verdict does not depend on the order of the answers. -/
theorem bloxrouteQuic_orderFree {interval : Duration} {hosts : List String} {endpoint : String}
    {call : Call (Except String Unit)}
    (sends : (bloxrouteQuic interval hosts endpoint).Sends last call) :
    OrderFree (bloxrouteQuic interval hosts endpoint) last call := by
  intro arrivals perm
  -- Whether the call is made does not depend on its answers.
  have sends' : (bloxrouteQuic interval hosts endpoint).Sends last
      { call with arrivals := arrivals } := sends
  rw [bloxrouteQuic_error sends, bloxrouteQuic_error sends']
  simp only [SomeAccepts, perm.mem_iff]

/-! ## The recorder -/

/-- The recorder keeps an open attempt exactly when its send reports no error. -/
theorem handleSend_open_iff {cfg : Recorder.Config} {recorder : Recorder.State} {s : SendEvent}
    {att : Recorder.TriggerAttempt}
    (present : recorder.attempts.get (s.triggerId, s.senderId) = some att) :
    ((Recorder.handleSend cfg recorder s).1.attempts.get (s.triggerId, s.senderId)).isSome ↔
      s.outcome.error = none := by
  rw [Recorder.handleSend_some present]
  cases failed : s.outcome.error with
  | none => simp [Recorder.noted_get]
  | some error =>
    have here : (Recorder.noted recorder (s.triggerId, s.senderId)
        { att with send := some s }).attempts.get (s.triggerId, s.senderId) =
          some { att with send := some s } := by
      simp [Recorder.noted_get]
    simp only [Option.isSome_some, if_true, Recorder.closeAttempt, here]
    cases att.register <;> simp [Recorder.noted]

/-- **What a multi-region send reports.** bloXroute over QUIC reports no error exactly
when some region accepted, in whatever order the answers arrive. Nozomi, Astralane, Jito
and bloXroute over HTTP report none exactly when the first answer is a success; so they
spare what a region accepted exactly when the first answer accepts or none does, and their
verdict does not depend on the order exactly when the answers agree. Each keeps its attempt
open in the recorder exactly when it reports no error. -/
theorem send_verdicts (interval : Duration) (hosts : List String) (last : Option Instant) :
    (∀ endpoint call, (bloxrouteQuic interval hosts endpoint).Sends last call →
      (((bloxrouteQuic interval hosts endpoint).send last call).2.error = none ↔
        SomeAccepts (bloxrouteQuic interval hosts endpoint) call) ∧
      Spares (bloxrouteQuic interval hosts endpoint) last call ∧
      OrderFree (bloxrouteQuic interval hosts endpoint) last call) ∧
    (∀ apiKey call, (nozomi interval hosts apiKey).Sends last call →
      RaceVerdict (nozomi interval hosts apiKey) last call) ∧
    (∀ apiKey call, (astralane interval hosts apiKey).Sends last call →
      RaceVerdict (astralane interval hosts apiKey) last call) ∧
    (∀ parse call, (jito interval hosts parse).Sends last call →
      RaceVerdict (jito interval hosts parse) last call) ∧
    (∀ parse parseSignature call, (bloxroute interval hosts parse parseSignature).Sends last call →
      RaceVerdict (bloxroute interval hosts parse parseSignature) last call) ∧
    ∀ (cfg : Recorder.Config) (recorder : Recorder.State) (s : SendEvent)
      (att : Recorder.TriggerAttempt),
      recorder.attempts.get (s.triggerId, s.senderId) = some att →
        (((Recorder.handleSend cfg recorder s).1.attempts.get
          (s.triggerId, s.senderId)).isSome ↔ s.outcome.error = none) := by
  refine ⟨?_, ?_, ?_, ?_, ?_, ?_⟩
  · intro endpoint call sends
    have decides := bloxrouteQuic_error sends
    exact ⟨decides, decides.mpr, bloxrouteQuic_orderFree sends⟩
  · exact fun _ _ sends => raceVerdict (fun _ _ => outcomeOf_error) rfl (fun _ => rfl) sends
  · exact fun _ _ sends => raceVerdict (fun _ _ => outcomeOf_error) rfl (fun _ => rfl) sends
  · exact fun _ _ sends => raceVerdict (fun _ _ => jitoOutcome_error) rfl (fun _ => rfl) sends
  · exact fun _ parseSignature _ sends =>
      raceVerdict (fun _ _ => bloxrouteOutcome_error parseSignature) rfl (fun _ => rfl) sends
  · exact fun _ _ _ _ present => handleSend_open_iff present

/-- A call of Nozomi with two regions, the answers in the given order. -/
def sampleCall (first second : Arrival HttpResult) : Call HttpResult where
  now := 1000
  sendAt := 1000
  signature := Vector.replicate 64 0
  bytes := 200
  arrivals := [first, second]

def sampleRejection : Arrival HttpResult := ⟨0, 2000, .response 429 "slow down"⟩

def sampleAcceptance : Arrival HttpResult := ⟨1, 3000, .response 200 ""⟩

/-- One region rejects and one accepts; the order of the answers decides. -/
theorem nozomi_rejectionMasks :
    (SomeAccepts (nozomi 0 ["fra", "ams"] "") (sampleCall sampleRejection sampleAcceptance) ∧
      ((nozomi 0 ["fra", "ams"] "").send none
        (sampleCall sampleRejection sampleAcceptance)).2.error =
          some "HTTP 429: slow down") ∧
      ((nozomi 0 ["fra", "ams"] "").send none
        (sampleCall sampleAcceptance sampleRejection)).2.error = none := by
  refine ⟨⟨⟨sampleAcceptance, by simp [sampleCall], by decide +kernel⟩, by decide +kernel⟩, ?_⟩
  decide +kernel

/-- The rejection first masks the acceptance; the acceptance first is spared. -/
theorem send_verdicts_nozomi :
    ¬ Spares (nozomi 0 ["fra", "ams"] "") none (sampleCall sampleRejection sampleAcceptance) ∧
      Spares (nozomi 0 ["fra", "ams"] "") none (sampleCall sampleAcceptance sampleRejection) := by
  have masked := ((send_verdicts 0 ["fra", "ams"] none).2.1 ""
    (sampleCall sampleRejection sampleAcceptance) ⟨rfl, by decide, rfl⟩).spares
  have spared := ((send_verdicts 0 ["fra", "ams"] none).2.1 ""
    (sampleCall sampleAcceptance sampleRejection) ⟨rfl, by decide, rfl⟩).spares
  refine ⟨fun spares => ?_, spared.mpr (.inl ⟨sampleAcceptance, rfl, by decide +kernel⟩)⟩
  rcases masked.mp spares with ⟨first, head, accepts⟩ | refused
  · cases head
    exact absurd accepts (by decide +kernel)
  · exact refused ⟨sampleAcceptance, by simp [sampleCall], by decide +kernel⟩

end SenderAnalysis.Senders

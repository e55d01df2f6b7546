import SenderAnalysis.FanOut.Samples
import SenderAnalysis.FanOut.Senders.Model
import SenderAnalysis.Foundations.Replacement

/-!
# The key in error texts

Nozomi and Astralane send their key in the URL, so an error of the transport or the
answer of a region may repeat it. What they are told is scrubbed: the key is replaced by
three stars, and what is left has no occurrence of a key without stars
(`not_reveals_scrub`).

Their own words are not scrubbed. The status of a rejection is put in front of the
scrubbed answer, and a call that sends nothing or gets no reply reports a fixed text. An
error therefore shows the key at most where an occurrence begins in these words
(`send_scrubbed`).
-/

set_option autoImplicit false

namespace SenderAnalysis.Senders

/-- The key occurs in the text. -/
def Reveals (text apiKey : String) : Prop := apiKey.toList <:+: text.toList

instance (text apiKey : String) : Decidable (Reveals text apiKey) :=
  inferInstanceAs (Decidable (_ <:+: _))

section Scrub

variable {apiKey : String}

/-- Scrubbing replaces the occurrences of the key that a scan from the left meets. -/
theorem toList_scrub (nonempty : apiKey ≠ "") (msg : String) :
    (scrub msg apiKey).toList = replaceAll apiKey.toList "***".toList msg.toList := by
  rw [scrub, if_neg (by simpa using nonempty)]
  exact toList_replace nonempty "***" msg

/-- **A scrubbed message does not contain the key.** -/
theorem not_reveals_scrub (nonempty : apiKey ≠ "") (unmasked : '*' ∉ apiKey.toList)
    (msg : String) : ¬ Reveals (scrub msg apiKey) apiKey := by
  rw [Reveals, toList_scrub nonempty]
  refine not_infix_replaceAll ?_ (by decide) ?_ msg.toList
  · rwa [Ne, String.toList_eq_nil_iff]
  · intro char member masked
    have star : char = '*' := by simpa using masked
    exact unmasked (star ▸ member)

end Scrub

/-! ## Error texts -/

/-- The errors of calls that send nothing or get no reply. -/
def fixedErrors : List String :=
  ["throttled_local", "no regions configured", "all fan-out tasks dropped without reply"]

/-- The text begins with the words, and every occurrence of the key begins in them. -/
def OnlyWithin (words text apiKey : String) : Prop :=
  words.toList <+: text.toList ∧
    ∀ before after, text.toList = before ++ apiKey.toList ++ after →
      before.length < words.toList.length

/-- What an outcome shows of the key: nothing in the message of a region, in the error of
a rejection at most an occurrence that begins in the words in front, and nothing in any
other error but the fixed ones. -/
structure Scrubbed (apiKey : String) (outcome : SendOutcome) : Prop where
  message : ∀ text ∈ outcome.rpcErrMessage, ¬ Reveals text apiKey
  rejection : ∀ status ∈ outcome.httpStatus, ∀ text ∈ outcome.error,
    OnlyWithin s!"HTTP {status}: " text apiKey
  failure : outcome.httpStatus = none →
    ∀ text ∈ outcome.error, text ∈ fixedErrors ∨ ¬ Reveals text apiKey

section Outcomes

variable {apiKey : String}

/-- Words in front of a text that does not contain the key. -/
theorem onlyWithin_append (words : String) {rest : String} (free : ¬ Reveals rest apiKey) :
    OnlyWithin words (words ++ rest) apiKey := by
  rw [OnlyWithin, String.toList_append]
  refine ⟨List.prefix_append _ _, ?_⟩
  intro before after split
  by_contra long
  have inside : words.toList <+: before := by
    refine List.prefix_of_prefix_length_le (List.prefix_append _ rest.toList) ?_ (by omega)
    rw [split, List.append_assoc]
    exact List.prefix_append _ _
  obtain ⟨more, rfl⟩ := inside
  refine free ⟨more, after, ?_⟩
  simp only [List.append_assoc, List.append_cancel_left_eq] at split
  rw [List.append_assoc]
  exact split.symm

theorem scrubbed_noReply (sendAt : Instant) (signature : Signature) {error : String}
    (fixed : error ∈ fixedErrors) : Scrubbed apiKey (noReply sendAt signature error) where
  message := by
    rintro text ⟨⟩
  rejection := by
    rintro status ⟨⟩
  failure := by
    rintro _ text ⟨⟩
    exact .inl fixed

/-- **The reply of a region is scrubbed.** -/
theorem scrubbed_statusReply (nonempty : apiKey ≠ "") (unmasked : '*' ∉ apiKey.toList)
    (sendAt : Instant) (signature : Signature) (host : String) (sendAckAt : Instant)
    (result : HttpResult) :
    Scrubbed apiKey (outcomeOf sendAt signature (statusReply apiKey host sendAckAt result)) := by
  cases result with
  | failed message =>
    constructor
    · rintro text ⟨⟩
    · rintro status ⟨⟩
    · rintro _ text ⟨⟩
      exact .inr (not_reveals_scrub nonempty unmasked _)
  | response status body =>
    rw [statusReply]
    split
    · constructor
      · rintro text ⟨⟩
      · rintro _ _ text ⟨⟩
      · rintro ⟨⟩
    · have free := not_reveals_scrub nonempty unmasked body
      constructor
      · rintro text ⟨⟩
        exact free
      · rintro _ ⟨⟩ text ⟨⟩
        exact onlyWithin_append _ free
      · rintro ⟨⟩

/-- **Every call of a sender that scrubs its replies and races them is scrubbed.** -/
theorem scrubbed_send (nonempty : apiKey ≠ "") (unmasked : '*' ∉ apiKey.toList)
    {sender : Sender HttpResult} (scrubs : sender.reply = statusReply apiKey)
    (accepts : sender.refuses = fun _ => none) (races : sender.verdict = raceFirst outcomeOf)
    (last : Option Instant) (call : Call HttpResult) :
    Scrubbed apiKey (sender.send last call).2 := by
  unfold Sender.send
  by_cases early : throttled last call.now sender.minSendInterval
  · rw [if_pos early]
    have fixed := @scrubbed_noReply apiKey call.now call.signature "throttled_local" (by decide)
    exact ⟨fixed.message, fixed.rejection, fixed.failure⟩
  · rw [if_neg early]
    by_cases idle : sender.hosts.isEmpty
    · simp only [idle, if_true]
      exact scrubbed_noReply call.sendAt call.signature (by decide)
    · simp only [idle, Bool.false_eq_true, if_false, accepts, races]
      cases call.arrivals with
      | nil => exact scrubbed_noReply call.sendAt call.signature (by decide)
      | cons first later =>
        rw [List.map_cons, raceFirst, Sender.replyOf, scrubs]
        exact scrubbed_statusReply nonempty unmasked _ _ _ _ _

end Outcomes

/-- **A scrubbed message is the message with the occurrences of the key replaced from the
left, and does not contain the key. In the outcome of a call, an error contains it only
where the occurrence begins in the sender's own words.** -/
theorem send_scrubbed (apiKey : String) (nonempty : apiKey ≠ "")
    (unmasked : '*' ∉ apiKey.toList) :
    (∀ msg, (scrub msg apiKey).toList = replaceAll apiKey.toList "***".toList msg.toList ∧
      ¬ Reveals (scrub msg apiKey) apiKey) ∧
    ∀ (minSendInterval : Duration) (hosts : List String),
      ∀ sender ∈ [nozomi minSendInterval hosts apiKey, astralane minSendInterval hosts apiKey],
        ∀ (last : Option Instant) (call : Call HttpResult),
          Scrubbed apiKey (sender.send last call).2 := by
  constructor
  · exact fun msg => ⟨toList_scrub nonempty msg, not_reveals_scrub nonempty unmasked msg⟩
  · intro minSendInterval hosts sender member last call
    simp only [List.mem_cons, List.not_mem_nil, or_false] at member
    rcases member with rfl | rfl
    · exact scrubbed_send nonempty unmasked rfl rfl rfl last call
    · exact scrubbed_send nonempty unmasked rfl rfl rfl last call

/-- A call that one region rejects. -/
def rejectedCall (body : String) : Call HttpResult where
  now := 1000
  sendAt := 1000
  signature := Samples.signature 1
  bytes := 200
  arrivals := [⟨0, 2000, .response 500 body⟩]

/-- A key that overlaps itself, in an answer with stars and adjacent occurrences. -/
theorem send_scrubbed_overlapping :
    "aba" ≠ "" ∧ '*' ∉ "aba".toList ∧
      (scrub "ababa*abaaba" "aba").toList = "***ba*******".toList ∧
      Scrubbed "aba"
        ((nozomi 0 ["fra2"] "aba").send none (rejectedCall "ababa*abaaba")).2 := by
  have scrubs := send_scrubbed "aba" (by decide) (by decide)
  refine ⟨by decide, by decide, ?_, ?_⟩
  · rw [(scrubs.1 _).1]
    decide
  · exact scrubs.2 0 ["fra2"] _ List.mem_cons_self none _

/-- The errors of a sender never contain the key. -/
def NeverReveals (sender : Sender HttpResult) (apiKey : String) : Prop :=
  ∀ (last : Option Instant) (call : Call HttpResult), ∀ text ∈ (sender.send last call).2.error,
    ¬ Reveals text apiKey

/-- **A key that is among the sender's own words is shown by them**, in front of the answer of
a region. -/
theorem own_words_reveal : ¬ NeverReveals (nozomi 0 ["fra2"] "HTTP") "HTTP" := by
  intro never
  refine never none (rejectedCall "") _ rfl ?_
  change "HTTP".toList <:+: ("HTTP " ++ toString (500 : UInt16) ++ ": " ++ scrub "" "HTTP").toList
  simp only [String.toList_append, List.append_assoc]
  exact ⟨[], _, rfl⟩

end SenderAnalysis.Senders

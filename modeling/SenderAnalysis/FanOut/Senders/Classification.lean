import SenderAnalysis.FanOut.Senders.HttpReplies

/-!
# Which replies pass for accepted

An outcome without an error stands for an accepted transaction. The readers of the senders
with one endpoint differ in what they check: those of JSON-RPC look neither at the status
nor for a result, and BlockRazor looks at the status only when no member of the body gives a
text, and for texts only. So some rejections pass for accepted transactions, and
`replies_classified_iff` says which.
-/

set_option autoImplicit false

namespace SenderAnalysis.Senders

/-! ## What an outcome without an error stands for -/

/-- A reply stands for an accepted transaction. -/
def ParsedReply.isOk : ParsedReply → Bool
  | .ok _ => true
  | .rpcError _ _ | .nonJson _ | .error _ => false

variable {sender : PostSender} {call : PostCall} {status : UInt16} {body : String}

theorem replyOutcome_error (reply : ParsedReply) :
    (sender.replyOutcome call status reply).error = none ↔ reply.isOk := by
  cases reply <;> simp [PostSender.replyOutcome, ParsedReply.isOk]

/-- A call reports no error only when its response is good in a given sense. -/
def Classified (sender : PostSender) (status : UInt16) (body : String) (good : Prop) : Prop :=
  ∀ last call, call.result = .response status body →
    (sender.send last call).2.error = none → good

/-- Whatever the throttle does, the reading of the response decides. -/
theorem classified_iff {good : Prop} :
    Classified sender status body good ↔ ((sender.parseReply status body).isOk → good) := by
  constructor
  · intro classified accepted
    -- A first call is never throttled.
    let call : PostCall := ⟨0, 0, 0, Vector.replicate 64 0, .response status body⟩
    apply classified none call rfl
    have free : throttled none call.now sender.minSendInterval = false := by simp [throttled]
    simp only [PostSender.send, free]
    exact (replyOutcome_error _).mpr accepted
  · intro reads last call result noError
    apply reads
    unfold PostSender.send at noError
    split at noError
    · cases noError
    · simp only [PostSender.outcome, result] at noError
      exact (replyOutcome_error _).mp noError

/-! ## JSON-RPC -/

/-- A body carries an error: a member `error` that is not `null`. -/
def CarriesError (json : Json) : Prop := ∃ value ∈ json.valuesOf "error", value ≠ .null

/-- A body carries a result: a member `result` that is not `null`. -/
def CarriesResult (json : Json) : Prop := ∃ value ∈ json.valuesOf "result", value ≠ .null

namespace JsonRpc

/-- A response that stands for an accepted transaction. -/
def Good (parse : String → Option Json) (status : UInt16) (body : String) : Prop :=
  status < 400 ∧ ∃ json, parse body = some json ∧ ¬ CarriesError json ∧ CarriesResult json

/-- A response without an error: an object in which `error` is missing or `null` and
`result` is missing, `null` or a string, or the array of such a result and `null`. -/
def WithoutError : Json → Prop
  | .object members =>
      (Json.valuesOf (.object members) "error" = [] ∨
        Json.valuesOf (.object members) "error" = [.null]) ∧
      (Json.valuesOf (.object members) "result" = [] ∨
        Json.valuesOf (.object members) "result" = [.null] ∨
        ∃ sig, Json.valuesOf (.object members) "result" = [.string sig])
  | .array [result, error] => error = .null ∧ (result = .null ∨ ∃ sig, result = .string sig)
  | _ => False

/-- A response without an error under a status of failure, or without a result. -/
def Slips (status : UInt16) (json : Json) : Prop :=
  WithoutError json ∧ (400 ≤ status ∨ ¬ CarriesResult json)

/-- A response is without an error when both members are read, and the error as nothing. -/
theorem response_withoutError {result : Option (Option String)}
    {error : Option (Option (Int32 × String))} :
    (∃ sig, (do return ⟨← result, ← error⟩ : Option JsonRpcResponse) = some ⟨sig, none⟩) ↔
      error = some none ∧ ∃ sig, result = some sig := by
  cases result <;> cases error <;> simp

theorem readResponse_withoutError {json : Json} :
    (∃ result, readResponse json = some ⟨result, none⟩) ↔ WithoutError json := by
  cases json with
  | object members =>
    exact response_withoutError.trans
      (and_congr Json.optionalMember_eq_none Json.optionalMember_asStr)
  | array items =>
    match items with
    | [] => simp [readResponse, WithoutError]
    | [_] => simp [readResponse, WithoutError]
    | [result, error] =>
      exact response_withoutError.trans (and_congr Json.optional_eq_none Json.optional_asStr)
    | _ :: _ :: _ :: _ => simp [readResponse, WithoutError]
  | null | bool | integer | float | string => simp [readResponse, WithoutError]

variable {parse : String → Option Json}

theorem parseReply_isOk :
    (parseReply parse body).isOk ↔ ∃ json, parse body = some json ∧ WithoutError json := by
  have read : (parseReply parse body).isOk ↔
      ∃ result, (parse body).bind readResponse = some ⟨result, none⟩ := by
    unfold parseReply
    rcases (parse body).bind readResponse with _ | ⟨result, _ | error⟩ <;>
      simp [ParsedReply.isOk]
  rw [read]
  cases parse body with
  | none => simp
  | some json => simp [readResponse_withoutError]

/-- A response that is read without an error carries none. -/
theorem WithoutError.carries {json : Json} (without : WithoutError json) : ¬ CarriesError json := by
  rintro ⟨value, member, nonNull⟩
  cases json with
  | object members =>
    obtain missing | null := without.1
    · rw [missing] at member
      cases member
    · rw [null] at member
      exact nonNull (List.mem_singleton.mp member)
  | null | bool | integer | float | string | array => cases member

/-- The outcome of a JSON-RPC sender is without an error only for good responses exactly
when the response does not slip through. -/
theorem classified_good_iff {sender : PostSender}
    (reads : ∀ status body, sender.parseReply status body = parseReply parse body) :
    Classified sender status body (Good parse status body) ↔
      ¬ ∃ json, parse body = some json ∧ Slips status json := by
  rw [classified_iff, reads, parseReply_isOk]
  constructor
  · rintro good ⟨json, parsed, without, slips⟩
    obtain ⟨low, other, parsed', _, result⟩ := good ⟨json, parsed, without⟩
    cases Option.some.inj (parsed.symm.trans parsed')
    obtain high | missing := slips
    · exact UInt16.not_le.mpr low high
    · exact missing result
  · rintro tight ⟨json, parsed, without⟩
    have slips : ¬ (400 ≤ status ∨ ¬ CarriesResult json) :=
      fun slips => tight ⟨json, parsed, without, slips⟩
    obtain ⟨low, result⟩ := not_or.mp slips
    exact ⟨UInt16.not_le.mp low, json, parsed, without.carries, not_not.mp result⟩

end JsonRpc

/-! ## BlockRazor -/

namespace BlockRazor

/-- A body carries an error: a member `error` that is not `null`, or a member `message`. -/
def CarriesFailure (json : Json) : Prop := CarriesError json ∨ json.valuesOf "message" ≠ []

/-- A response that stands for an accepted transaction. -/
def Good (parse : String → Option Json) (status : UInt16) (body : String) : Prop :=
  status < 400 ∧ ∀ json, parse body = some json → ¬ CarriesFailure json

/-- Neither the last member `error` nor the last member `message` is a string, and a
signature under a status of failure, or an error that is no string. -/
def Slips (status : UInt16) (body : String) (json : Json) : Prop :=
  json.getStr "error" = none ∧ json.getStr "message" = none ∧
    if status < 400 then
      CarriesFailure json ∧
        (trim body ≠ "" ∨ json.getStr "signature" ≠ none ∨ json.getStr "result" ≠ none)
    else json.getStr "signature" ≠ none ∨ json.getStr "result" ≠ none

variable {parse : String → Option Json}

theorem errorText_eq_none {json : Json} :
    errorText json = none ↔ json.getStr "error" = none ∧ json.getStr "message" = none := by
  unfold errorText
  cases json.getStr "error" <;> simp

theorem signatureText_ne_none {json : Json} :
    signatureText json ≠ none ↔
      json.getStr "signature" ≠ none ∨ json.getStr "result" ≠ none := by
  unfold signatureText
  cases json.getStr "signature" <;> simp

theorem plainReply_isOk : (plainReply status body).isOk ↔ status < 400 ∧ trim body ≠ "" := by
  unfold plainReply
  split <;> simp_all [ParsedReply.isOk]

theorem parseReply_isOk :
    (parseReply parse status body).isOk ↔
      match parse body with
      | some json => errorText json = none ∧
          (signatureText json ≠ none ∨ status < 400 ∧ trim body ≠ "")
      | none => status < 400 ∧ trim body ≠ "" := by
  unfold parseReply
  cases parse body with
  | none => exact plainReply_isOk
  | some json =>
    dsimp only
    cases errorText json with
    | some message => simp [ParsedReply.isOk]
    | none =>
      cases signatureText json with
      | some signature => simp [ParsedReply.isOk]
      | none => simpa using plainReply_isOk

theorem classified_good_iff {sender : PostSender}
    (reads : sender.parseReply = parseReply parse) :
    Classified sender status body (Good parse status body) ↔
      ¬ ∃ json, parse body = some json ∧ Slips status body json := by
  rw [classified_iff, reads, parseReply_isOk]
  unfold Good
  cases parsed : parse body with
  | none =>
    constructor
    · rintro _ ⟨json, absent, _⟩
      cases absent
    · rintro _ ⟨low, _⟩
      exact ⟨low, fun json absent => (by cases absent)⟩
  | some json =>
    have one : (∀ json', some json = some json' → ¬ CarriesFailure json') ↔
        ¬ CarriesFailure json := by simp
    have slips : (∃ json', some json = some json' ∧ Slips status body json') ↔
        Slips status body json := by simp
    rw [one, slips]
    unfold Slips
    dsimp only
    rw [errorText_eq_none, signatureText_ne_none, and_assoc]
    by_cases low : status < 400
    · rw [if_pos low]
      constructor
      · rintro good ⟨noError, noMessage, failure, plain | member⟩
        · exact (good ⟨noError, noMessage, .inr ⟨low, plain⟩⟩).2 failure
        · exact (good ⟨noError, noMessage, .inl member⟩).2 failure
      · rintro tight ⟨noError, noMessage, member | ⟨_, plain⟩⟩
        · exact ⟨low, fun failure => tight ⟨noError, noMessage, failure, .inr member⟩⟩
        · exact ⟨low, fun failure => tight ⟨noError, noMessage, failure, .inl plain⟩⟩
    · rw [if_neg low]
      constructor
      · rintro good ⟨noError, noMessage, member⟩
        exact low (good ⟨noError, noMessage, .inl member⟩).1
      · rintro tight ⟨noError, noMessage, member | ⟨high, _⟩⟩
        · exact absurd ⟨noError, noMessage, member⟩ tight
        · exact absurd high low

end BlockRazor

/-! ## The four senders -/

/-- The outcomes of the four senders are without an error only for good responses exactly
when no response slips through: for JSON-RPC, one without an error under a status of failure
or without a result, and for BlockRazor, one whose error is no string or whose signature
comes under a status of failure. -/
theorem replies_classified_iff (parse : String → Option Json)
    (parseSignature : String → Option Signature) (minSendInterval : Duration)
    (endpoint : String) (status : UInt16) (body : String) :
    (Classified (helius parse parseSignature endpoint) status body
        (JsonRpc.Good parse status body) ↔
      ¬ ∃ json, parse body = some json ∧ JsonRpc.Slips status json) ∧
    (Classified (syncro parse parseSignature minSendInterval endpoint) status body
        (JsonRpc.Good parse status body) ↔
      ¬ ∃ json, parse body = some json ∧ JsonRpc.Slips status json) ∧
    (Classified (zeroSlot parse parseSignature minSendInterval endpoint) status body
        (JsonRpc.Good parse status body) ↔
      ¬ ∃ json, parse body = some json ∧ JsonRpc.Slips status json) ∧
    (Classified (blockRazor parse parseSignature minSendInterval endpoint) status body
        (BlockRazor.Good parse status body) ↔
      ¬ ∃ json, parse body = some json ∧ BlockRazor.Slips status body json) :=
  ⟨JsonRpc.classified_good_iff fun _ _ => rfl, JsonRpc.classified_good_iff fun _ _ => rfl,
    JsonRpc.classified_good_iff fun _ _ => rfl, BlockRazor.classified_good_iff rfl⟩

/-- The empty object, as a text. -/
def emptyObject : String := "\x7b\x7d"

/-- An object with a signature, and with an error that is no string. -/
def structuredError : Json :=
  .object [("error", .object [("code", .integer (-32600))]), ("signature", .string "5Sig")]

def structuredErrorText : String :=
  "\x7b\"error\":\x7b\"code\":-32600\x7d,\"signature\":\"5Sig\"\x7d"

/-- Helius takes an empty object under the status 500 for an accepted transaction, and
BlockRazor a signature beside an error that is an object. -/
theorem replies_violated :
    ¬ Classified (helius (fun _ => some (.object [])) (fun _ => none) "https://helius") 500
        emptyObject (JsonRpc.Good (fun _ => some (.object [])) 500 emptyObject) ∧
      ¬ Classified (blockRazor (fun _ => some structuredError) (fun _ => none) 0 "http://fra") 200
        structuredErrorText
        (BlockRazor.Good (fun _ => some structuredError) 200 structuredErrorText) := by
  constructor
  · intro classified
    have good := classified none ⟨0, 0, 0, Vector.replicate 64 0, .response 500 emptyObject⟩
      rfl rfl
    exact absurd good.1 (by decide)
  · intro classified
    have good := classified none
      ⟨0, 0, 0, Vector.replicate 64 0, .response 200 structuredErrorText⟩ rfl rfl
    refine good.2 structuredError rfl (.inl ?_)
    exact ⟨.object [("code", .integer (-32600))], by simp [structuredError, Json.valuesOf],
      by simp⟩

end SenderAnalysis.Senders

import SenderAnalysis.FanOut.Senders.Throttle
import SenderAnalysis.Foundations.Json

/-!
# The senders with one endpoint

Helius, Syncro, 0slot and BlockRazor post a transaction to one endpoint and make the outcome
of the one response. The first three read the body as a JSON-RPC response. BlockRazor looks
for texts in the members of a JSON body and falls back on the plain body.

The parsers of JSON texts and of signatures in base 58 are parameters.
-/

set_option autoImplicit false

namespace SenderAnalysis.Senders

/-! ## Reading the body -/

/-- What the body of a response says. -/
inductive ParsedReply where
  | ok (signature : Option String)
  | rpcError (code : Int32) (message : String)
  | nonJson (body : String)
  | error (message : String)
deriving DecidableEq, Repr

namespace JsonRpc

/-- The error of a JSON-RPC response. -/
def readError : Json → Option (Int32 × String)
  | .object members => do
      let code ← Json.required Json.asI32 (Json.valuesOf (.object members) "code")
      let message ← Json.required Json.asStr (Json.valuesOf (.object members) "message")
      return (code, message)
  | .array [code, message] => do return (← code.asI32, ← message.asStr)
  | _ => none

/-- A JSON-RPC response. -/
def readResponse : Json → Option JsonRpcResponse
  | .object members => do
      let result ← Json.optionalMember Json.asStr (Json.valuesOf (.object members) "result")
      let error ← Json.optionalMember readError (Json.valuesOf (.object members) "error")
      return ⟨result, error⟩
  | .array [result, error] => do
      return ⟨← Json.optional Json.asStr result, ← Json.optional readError error⟩
  | _ => none

def parseReply (parse : String → Option Json) (body : String) : ParsedReply :=
  match (parse body).bind readResponse with
  | some ⟨_, some (code, message)⟩ => .rpcError code message
  | some ⟨result, none⟩ => .ok result
  | none => .nonJson body

end JsonRpc

/-- The characters that `trim` takes away. -/
def isWhitespace (c : Char) : Bool :=
  (9 ≤ c.toNat && c.toNat ≤ 13) || (0x2000 ≤ c.toNat && c.toNat ≤ 0x200a) ||
    [0x20, 0x85, 0xa0, 0x1680, 0x2028, 0x2029, 0x202f, 0x205f, 0x3000].contains c.toNat

def trim (text : String) : String :=
  .ofList ((text.toList.dropWhile isWhitespace).reverse.dropWhile isWhitespace).reverse

namespace BlockRazor

/-- The text of an error in a JSON body. -/
def errorText (json : Json) : Option String := json.getStr "error" <|> json.getStr "message"

/-- The text of a signature in a JSON body. -/
def signatureText (json : Json) : Option String := json.getStr "signature" <|> json.getStr "result"

/-- The plain body is the signature, unless the status is an error. -/
def plainReply (status : UInt16) (body : String) : ParsedReply :=
  if status < 400 ∧ trim body ≠ "" then .ok (some (trim body))
  else .error s!"HTTP {status}: {trim body}"

def parseReply (parse : String → Option Json) (status : UInt16) (body : String) : ParsedReply :=
  match parse body with
  | some json =>
      match errorText json with
      | some message => .error message
      | none =>
          match signatureText json with
          | some signature => .ok (some signature)
          | none => plainReply status body
  | none => plainReply status body

end BlockRazor

/-! ## Calls -/

/-- A call of `send`: its times, the signature of the transaction, and the response. -/
structure PostCall where
  now : Instant
  sendAt : Instant
  sendAckAt : Instant
  signature : Signature
  result : HttpResult
deriving DecidableEq, Repr

/-- A sender: its pace, its endpoint as it is shown, and what it reads from a response. -/
structure PostSender where
  minSendInterval : Duration
  endpoint : String
  parseReply : UInt16 → String → ParsedReply
  parseSignature : String → Option Signature

namespace PostSender

variable (sender : PostSender)

/-- The outcome of a reply. The signature that comes back is preferred. -/
def replyOutcome (call : PostCall) (status : UInt16) (reply : ParsedReply) : SendOutcome :=
  let answered : SendOutcome :=
    { sendAt := call.sendAt
      sendAckAt := some call.sendAckAt
      signature := call.signature
      httpStatus := some status
      rpcErrCode := none
      rpcErrMessage := none
      providerRequestId := none
      error := none
      endpointUrlUsed := some sender.endpoint }
  match reply with
  | .ok returned =>
      { answered with
        signature := (returned.bind sender.parseSignature).getD call.signature }
  | .rpcError code message =>
      { answered with
        rpcErrCode := some code
        rpcErrMessage := some message
        error := some message }
  | .nonJson body =>
      { answered with
        rpcErrMessage := some s!"non-JSONRPC body: {body}"
        error := some s!"HTTP {status} body: {body}" }
  | .error message =>
      { answered with
        rpcErrMessage := some message
        error := some message }

/-- The outcome of a response, or of an error of the transport. -/
def outcome (call : PostCall) : SendOutcome :=
  match call.result with
  | .response status body => sender.replyOutcome call status (sender.parseReply status body)
  | .failed message =>
      { noReply call.sendAt call.signature s!"network: {message}" with
        endpointUrlUsed := some sender.endpoint }

/-- Send a transaction; the state is the time of the last send. -/
def send (last : Option Instant) (call : PostCall) : Option Instant × SendOutcome :=
  if throttled last call.now sender.minSendInterval then
    (last, throttledLocal call.now call.signature)
  else (if 0 < sender.minSendInterval then some call.now else last, sender.outcome call)

/-- A sender with one endpoint is paced. -/
def paced : PacedSend PostCall where
  interval := sender.minSendInterval
  signature := PostCall.signature
  send last now call := sender.send last { call with now := now }
  throttles last now call held := by simp only [send, held, if_true]
  admits last now call free positive := by simp [send, free, positive]

/-- The times of the admitted calls of a sender with one endpoint are at least the interval
apart, in every interleaving. -/
theorem posts_spaced (sender : PostSender) (positive : 0 < sender.minSendInterval)
    (acts : List (Throttle.Act PostCall)) :
    (Throttle.admittedAt (Throttle.run sender.paced acts).2).Pairwise fun earlier later =>
      earlier + sender.minSendInterval ≤ later :=
  (Throttle.run_spaced sender.paced positive acts).1

end PostSender

/-! ## The senders -/

section Senders

variable (parse : String → Option Json) (parseSignature : String → Option Signature)
  (minSendInterval : Duration) (endpoint : String)

/-- Helius is not paced. -/
def helius : PostSender where
  minSendInterval := 0
  endpoint := endpoint
  parseReply _ body := JsonRpc.parseReply parse body
  parseSignature := parseSignature

def syncro : PostSender where
  minSendInterval := minSendInterval
  endpoint := endpoint
  parseReply _ body := JsonRpc.parseReply parse body
  parseSignature := parseSignature

def zeroSlot : PostSender where
  minSendInterval := minSendInterval
  endpoint := endpoint
  parseReply _ body := JsonRpc.parseReply parse body
  parseSignature := parseSignature

def blockRazor : PostSender where
  minSendInterval := minSendInterval
  endpoint := endpoint
  parseReply := BlockRazor.parseReply parse
  parseSignature := parseSignature

end Senders

end SenderAnalysis.Senders

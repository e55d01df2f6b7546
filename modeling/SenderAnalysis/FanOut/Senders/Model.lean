import SenderAnalysis.FanOut.Dispatcher

/-!
# The multi-region senders

Nozomi, Astralane, Jito and bloXroute take one signed transaction and send it to all
their regional hosts at once. Each region answers in a task of its own, and the answers
arrive in any order; a region whose task is dropped does not answer. The senders share
the frame of a call: a local throttle that paces the triggers, a check that there are
regions, and the fan-out. They differ in what they make of the answer of a region and in
which answers decide. The HTTP senders race the first reply; bloXroute over QUIC takes
the first success.

The parsers of JSON bodies and of signatures in base 58 are parameters.
-/

set_option autoImplicit false

namespace SenderAnalysis.Senders

/-! ## Replies -/

/-- What a region makes of a POST: a response, or an error of the transport. -/
inductive HttpResult where
  | response (status : UInt16) (body : String)
  | failed (message : String)
deriving DecidableEq, Repr

/-- One regional fan-out result, with the fields of all senders; those a sender does not
have are `none`. -/
inductive FanoutReply where
  | success (host : String) (sendAckAt : Instant) (httpStatus : Option UInt16)
      (returned : Option String)
  | error (host : String) (sendAckAt : Instant) (httpStatus : Option UInt16)
      (rpcErrCode : Option Int32) (rpcErrMessage : Option String) (error : String)
deriving DecidableEq, Repr

def FanoutReply.isSuccess : FanoutReply → Bool
  | success _ _ _ _ => true
  | error _ _ _ _ _ _ => false

/-- A status that reports success. -/
def ok (status : UInt16) : Bool := 200 ≤ status && status < 300

/-- Take the key out of a message. -/
def scrub (msg apiKey : String) : String :=
  if apiKey.isEmpty then msg else msg.replace apiKey "***"

/-- The reply of a region whose status alone decides, as Nozomi and Astralane read it. -/
def statusReply (apiKey host : String) (sendAckAt : Instant) : HttpResult → FanoutReply
  | .response status body =>
      if ok status then .success host sendAckAt (some status) none
      else
        let text := scrub body apiKey
        .error host sendAckAt (some status) none (some text) s!"HTTP {status}: {text}"
  | .failed message =>
      .error host sendAckAt none none none (scrub s!"network: {message}" apiKey)

/-- The body of a JSON-RPC response. -/
structure JsonRpcResponse where
  result : Option String
  error : Option (Int32 × String)
deriving DecidableEq, Repr

/-- Jito's reading of a response. -/
def parseJsonRpcReply (parse : String → Option JsonRpcResponse) (host : String)
    (status : UInt16) (body : String) (sendAckAt : Instant) : FanoutReply :=
  match parse body with
  | some ⟨_, some (code, message)⟩ =>
      .error host sendAckAt (some status) (some code) (some message) message
  | some ⟨some sig, none⟩ => .success host sendAckAt (some status) (some sig)
  | some ⟨none, none⟩ =>
      .error host sendAckAt (some status) none (some "empty result") "empty result"
  | none =>
      .error host sendAckAt (some status) none (some s!"non-JSONRPC body: {body}")
        s!"HTTP {status} body: {body}"

/-- The body of a response of bloXroute. -/
structure SubmitResponse where
  signature : Option String
  code : Option Int32
  message : Option String
deriving DecidableEq, Repr

/-- bloXroute's reading of a response. -/
def parseReply (parse : String → Option SubmitResponse) (host : String) (status : UInt16)
    (body : String) (sendAckAt : Instant) : FanoutReply :=
  if ok status then
    match parse body with
    | some r =>
        match r.message with
        | none => .success host sendAckAt (some status) r.signature
        | some message => .error host sendAckAt (some status) r.code (some message) message
    -- A body that is no JSON counts as accepted; the signature is known.
    | none => .success host sendAckAt (some status) none
  else
    let (code, msg) :=
      match parse body with
      | some r => (r.code, r.message.getD body)
      | none => (none, body)
    .error host sendAckAt (some status) code (some msg) s!"HTTP {status}: {msg}"

/-- The reply of a region when the transport fails. -/
def networkReply (host : String) (sendAckAt : Instant) (message : String) : FanoutReply :=
  .error host sendAckAt none none none s!"network: {message}"

/-! ## Outcomes -/

/-- The outcome of a call in which no region answered. -/
def noReply (sendAt : Instant) (signature : Signature) (error : String) : SendOutcome where
  sendAt := sendAt
  sendAckAt := none
  signature := signature
  httpStatus := none
  rpcErrCode := none
  rpcErrMessage := none
  providerRequestId := none
  error := some error
  endpointUrlUsed := none

/-- The outcome a reply stands for. -/
def outcomeOf (sendAt : Instant) (signature : Signature) : FanoutReply → SendOutcome
  | .success host sendAckAt httpStatus _ =>
      { sendAt := sendAt
        sendAckAt := some sendAckAt
        signature := signature
        httpStatus := httpStatus
        rpcErrCode := none
        rpcErrMessage := none
        providerRequestId := none
        error := none
        endpointUrlUsed := some host }
  | .error host sendAckAt httpStatus rpcErrCode rpcErrMessage error =>
      { sendAt := sendAt
        sendAckAt := some sendAckAt
        signature := signature
        httpStatus := httpStatus
        rpcErrCode := rpcErrCode
        rpcErrMessage := rpcErrMessage
        providerRequestId := none
        error := some error
        endpointUrlUsed := some host }

/-- Jito reports the signature it was given as the id of the request. -/
def jitoOutcome (sendAt : Instant) (signature : Signature) (reply : FanoutReply) : SendOutcome :=
  match reply with
  | .success _ _ _ returned =>
      { outcomeOf sendAt signature reply with providerRequestId := returned }
  | .error _ _ _ _ _ _ => outcomeOf sendAt signature reply

/-- bloXroute prefers the signature it was given. -/
def bloxrouteOutcome (parseSignature : String → Option Signature) (sendAt : Instant)
    (signature : Signature) (reply : FanoutReply) : SendOutcome :=
  match reply with
  | .success _ _ _ returned =>
      { outcomeOf sendAt signature reply with
        signature := (returned.bind parseSignature).getD signature }
  | .error _ _ _ _ _ _ => outcomeOf sendAt signature reply

def dropped (sendAt : Instant) (signature : Signature) : SendOutcome :=
  noReply sendAt signature "all fan-out tasks dropped without reply"

/-- The first reply decides. -/
def raceFirst (outcome : Instant → Signature → FanoutReply → SendOutcome) (sendAt : Instant)
    (signature : Signature) : List FanoutReply → SendOutcome
  | [] => dropped sendAt signature
  | first :: _ => outcome sendAt signature first

/-- The first success decides, else the last error. -/
def takeFirstSuccess (sendAt : Instant) (signature : Signature) :
    Option FanoutReply → List FanoutReply → SendOutcome
  | some reply, [] => outcomeOf sendAt signature reply
  | none, [] => dropped sendAt signature
  | _, reply@(.success _ _ _ _) :: _ => outcomeOf sendAt signature reply
  | _, reply@(.error _ _ _ _ _ _) :: rest =>
      takeFirstSuccess sendAt signature (some reply) rest

/-! ## Calls -/

/-- An answer of a region as it arrives. -/
structure Arrival (α : Type) where
  region : Nat
  sendAckAt : Instant
  result : α

/-- A call of `send`: its two times, the transaction's signature and length in bytes, and
the answers in the order in which they arrive. -/
structure Call (α : Type) where
  now : Instant
  sendAt : Instant
  signature : Signature
  bytes : Nat
  arrivals : List (Arrival α)

/-- A sender: its pace and its hosts as they are shown, what it makes of an answer, what
keeps it from sending, and which replies decide. -/
structure Sender (α : Type) where
  minSendInterval : Duration
  hosts : List String
  reply : String → Instant → α → FanoutReply
  refuses : Call α → Option SendOutcome := fun _ => none
  verdict : Instant → Signature → List FanoutReply → SendOutcome

/-- The last send is less than the interval ago. -/
def throttled (last : Option Instant) (now : Instant) (interval : Duration) : Bool :=
  0 < interval && match last with
    | some prev => saturatingDurationSince now prev < interval
    | none => false

/-- The outcome of a throttled call. -/
def throttledLocal (now : Instant) (signature : Signature) : SendOutcome :=
  { noReply now signature "throttled_local" with sendAckAt := some now }

namespace Sender

variable {α : Type} (sender : Sender α)

/-- The reply an answer becomes. -/
def replyOf (arrival : Arrival α) : FanoutReply :=
  sender.reply (sender.hosts.getD arrival.region "") arrival.sendAckAt arrival.result

/-- Send a transaction; the state is the time of the last send. -/
def send (last : Option Instant) (call : Call α) : Option Instant × SendOutcome :=
  if throttled last call.now sender.minSendInterval then
    (last, throttledLocal call.now call.signature)
  else
    let last := if 0 < sender.minSendInterval then some call.now else last
    if sender.hosts.isEmpty then
      (last, noReply call.sendAt call.signature "no regions configured")
    else
      match sender.refuses call with
      | some refusal => (last, refusal)
      | none =>
          (last, sender.verdict call.sendAt call.signature (call.arrivals.map sender.replyOf))

end Sender

/-! ## The senders -/

def nozomi (minSendInterval : Duration) (hosts : List String) (apiKey : String) :
    Sender HttpResult where
  minSendInterval := minSendInterval
  hosts := hosts
  reply := statusReply apiKey
  verdict := raceFirst outcomeOf

def astralane (minSendInterval : Duration) (hosts : List String) (apiKey : String) :
    Sender HttpResult where
  minSendInterval := minSendInterval
  hosts := hosts
  reply := statusReply apiKey
  verdict := raceFirst outcomeOf

def jito (minSendInterval : Duration) (hosts : List String)
    (parse : String → Option JsonRpcResponse) : Sender HttpResult where
  minSendInterval := minSendInterval
  hosts := hosts
  reply host sendAckAt result :=
    match result with
    | .response status body => parseJsonRpcReply parse host status body sendAckAt
    | .failed message => networkReply host sendAckAt message
  verdict := raceFirst jitoOutcome

def bloxroute (minSendInterval : Duration) (hosts : List String)
    (parse : String → Option SubmitResponse) (parseSignature : String → Option Signature) :
    Sender HttpResult where
  minSendInterval := minSendInterval
  hosts := hosts
  reply host sendAckAt result :=
    match result with
    | .response status body => parseReply parse host status body sendAckAt
    | .failed message => networkReply host sendAckAt message
  verdict := raceFirst (bloxrouteOutcome parseSignature)

/-- The most bytes of a transaction. -/
def maxTxSize : Nat := 1232

/-- Over QUIC a region does not answer: the write goes through, or fails with a
message. -/
def bloxrouteQuic (minSendInterval : Duration) (hosts : List String) (endpointTemplate : String) :
    Sender (Except String Unit) where
  minSendInterval := minSendInterval
  hosts := hosts
  reply host sendAckAt result :=
    match result with
    | .ok () => .success host sendAckAt none none
    | .error message => .error host sendAckAt none none none s!"quic: {message}"
  refuses call :=
    if maxTxSize < call.bytes then
      some { noReply call.sendAt call.signature s!"tx too large: {call.bytes} > {maxTxSize}" with
        endpointUrlUsed := some endpointTemplate }
    else none
  verdict sendAt signature replies := takeFirstSuccess sendAt signature none replies

end SenderAnalysis.Senders

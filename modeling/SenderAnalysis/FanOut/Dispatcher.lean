import SenderAnalysis.FanOut.TriggerEngine.Model
import SenderAnalysis.FanOut.TxPool

/-!
# The dispatcher

The dispatcher takes the transactions of a fired trigger out of the pool and hands
each of them to its sender. Before a transaction is sent its signature is waited
for and its attempt is registered; after it was sent the outcome is reported by a
task of its own. In nonce mode a trigger without transactions in the pool is
skipped.
-/

set_option autoImplicit false

namespace SenderAnalysis

/-- An attempt, registered before its transaction is sent. -/
structure RegisterEvent where
  triggerId : TriggerId
  senderId : UInt8
  senderName : String
  endpointUrl : String
  protocol : String
  signature : Signature
  slot : Nat
  tick : Nat
  triggerObservedAt : Instant
  preparedAt : Instant
  blockhash : Hash
  nonceId : Option NonceId
deriving DecidableEq, Repr

/-- What a sender reports of one transaction. -/
structure SendOutcome where
  sendAt : Instant
  sendAckAt : Option Instant
  signature : Signature
  httpStatus : Option UInt16
  rpcErrCode : Option Int32
  rpcErrMessage : Option String
  providerRequestId : Option String
  error : Option String
  endpointUrlUsed : Option String
deriving DecidableEq, Repr

structure SendEvent where
  triggerId : TriggerId
  senderId : UInt8
  outcome : SendOutcome
deriving DecidableEq, Repr

namespace Dispatcher

/-- The part of a sender's configuration that is registered. -/
structure SenderConfig where
  id : UInt8
  name : String
deriving DecidableEq, Repr

/-- What a sender tells of itself. -/
structure TxSender where
  endpointUrl : String
  protocol : String
deriving DecidableEq, Repr

structure Config where
  sendersCfg : List SenderConfig
  sendersById : HashTable UInt8 TxSender

/-- What the dispatcher does for a transaction. -/
inductive Action where
  | insertPending (signature : Signature)
  | register (reg : RegisterEvent)
  | spawnSend (triggerId : TriggerId) (senderId : UInt8) (tx : PreSignedTx)
deriving DecidableEq, Repr

/-- The attempt of a transaction, when its sender is configured. -/
def registration (cfg : Config) (trig : TriggerEvent) (presigned : PreSignedTx) :
    Option RegisterEvent :=
  match cfg.sendersCfg.find? fun sender => sender.id == presigned.senderId with
  | none => none
  | some senderCfg =>
      match cfg.sendersById.get presigned.senderId with
      | none => none
      | some sender =>
          some {
            triggerId := trig.triggerId
            senderId := senderCfg.id
            senderName := senderCfg.name
            endpointUrl := sender.endpointUrl
            protocol := sender.protocol
            signature := presigned.signature
            slot := trig.slot
            tick := trig.tick
            triggerObservedAt := trig.triggerObservedAt
            preparedAt := presigned.preparedAt
            blockhash := presigned.blockhash
            nonceId := presigned.nonceId }

/-- Wait for one transaction, register it and have it sent. -/
def dispatchVariant (cfg : Config) (trig : TriggerEvent) (presigned : PreSignedTx) : List Action :=
  .insertPending presigned.signature ::
    match registration cfg trig presigned with
    | none => []
    | some reg => [.register reg, .spawnSend trig.triggerId reg.senderId presigned]

/-- Fan a trigger out. -/
def fanOut (cfg : Config) (trig : TriggerEvent) (variants : List PreSignedTx) : List Action :=
  variants.flatMap (dispatchVariant cfg trig)

/-- One iteration in nonce mode. -/
def dispatch (cfg : Config) (pool : TxPool) (trig : TriggerEvent) : TxPool × List Action :=
  match pool.take trig.slot trig.tick with
  | (pool, some variants) => (pool, fanOut cfg trig variants)
  | (pool, none) => (pool, [])

end Dispatcher

end SenderAnalysis

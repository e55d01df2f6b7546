import SenderAnalysis.FanOut.Nonce.Manager

/-!
# The pool of signed transactions

The pool holds, for every scheduled slot and tick, the transactions that were
signed for it, one for every enabled sender. The transactions themselves are told
apart by their signature.
-/

set_option autoImplicit false

namespace SenderAnalysis

/-- A signed transaction of one sender. -/
structure PreSignedTx where
  senderId : UInt8
  signature : Signature
  blockhash : Hash
  preparedAt : Instant
  nonceId : Option NonceId
deriving DecidableEq, Repr

/-- The transactions for every slot and tick. -/
abbrev TxPool := HashTable (Nat × Nat) (List PreSignedTx)

namespace TxPool

/-- Take the transactions for a slot and a tick out of the pool. -/
def take (pool : TxPool) (slot tick : Nat) : TxPool × Option (List PreSignedTx) :=
  (pool.remove (slot, tick), pool.get (slot, tick))

/-- Put the transactions for a slot and a tick into the pool, in the place of those
that are there. -/
def insertAll (pool : TxPool) (slot tick : Nat) (txs : List PreSignedTx) : TxPool :=
  pool.insert (slot, tick) txs

/-- Drop the transactions for the slots before a slot. -/
def evictBelow (pool : TxPool) (cutoffSlot : Nat) : TxPool :=
  pool.retain fun key _ => key.1 ≥ cutoffSlot

end TxPool

end SenderAnalysis

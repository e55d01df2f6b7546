import SenderAnalysis.EntrySources.Observation
import SenderAnalysis.Foundations.HashTables

/-!
# The transaction pool of the single-sender bench

The pool holds at most one signed transaction for a slot and a tick. The preparer fills it
and takes expired transactions out, the observer takes a transaction out when its tick is
seen.
-/

set_option autoImplicit false

namespace SenderAnalysis.TickTriggerBench

/-- A pre-signed transaction stored in the pool. -/
structure PreSignedTx where
  serialized : List UInt8
  signature : Signature
  blockhash : Hash
  builtAt : Instant
deriving DecidableEq, Repr

/-- What a pooled transaction is kept under: a slot and a tick. -/
abbrev PoolKey := Nat × UInt8

abbrev TxPool := HashTable PoolKey PreSignedTx

namespace TxPool

def insert (pool : TxPool) (slot : Nat) (tick : UInt8) (tx : PreSignedTx) : TxPool :=
  HashTable.insert pool (slot, tick) tx

/-- Remove the transaction for a slot and a tick. -/
def take (pool : TxPool) (slot : Nat) (tick : UInt8) : TxPool × Option PreSignedTx :=
  (HashTable.remove pool (slot, tick), HashTable.get pool (slot, tick))

/-- Drop the transactions for slots below the cutoff. -/
def pruneOlderThan (pool : TxPool) (cutoffSlot : Nat) : TxPool :=
  pool.retain fun key _ => cutoffSlot ≤ key.1

end TxPool

end SenderAnalysis.TickTriggerBench

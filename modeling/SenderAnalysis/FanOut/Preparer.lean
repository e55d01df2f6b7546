import SenderAnalysis.FanOut.TxPool

/-!
# The preparer

The preparer signs the transactions of scheduled triggers ahead of time. For every
schedule entry it takes a ready value from the nonce manager, signs one transaction
for every enabled sender, and puts them into the pool. When no nonce is ready it
keeps the entry and tries again. Every half second it drops what lies more than
four slots back from the pool.

Other threads run between these parts, so each of them is a function of its own.
Which senders get a transaction, in which shuffled order, and what its signature
is, is decided by signing, and is given to `insertVariants`.
-/

set_option autoImplicit false

namespace SenderAnalysis

structure ScheduleEntry where
  slot : Nat
  tick : Nat
deriving DecidableEq, Repr

namespace Preparer

/-- What the transactions of a trigger are signed with. -/
structure Signing where
  entry : ScheduleEntry
  blockhash : Hash
  nonceId : Option NonceId
  preparedAt : Instant
deriving DecidableEq, Repr

/-- The state of the preparer's thread: the entry that waits for a nonce, what is
being signed, and when the pool was last swept. -/
structure State where
  pending : Option ScheduleEntry := none
  signing : Option Signing := none
  lastEvict : Instant
deriving DecidableEq, Repr

/-- The next entry: the one that waits, or else the one received, unless its slot is
in the past. -/
def nextEntry (preparer : State) (received : Option ScheduleEntry) (currentSlot : Nat) :
    State × Option ScheduleEntry :=
  match preparer.pending <|> received with
  | some entry =>
      if currentSlot > 0 ∧ entry.slot + 1 < currentSlot then
        ({ preparer with pending := none }, none)
      else ({ preparer with pending := none }, some entry)
  | none => (preparer, none)

/-- Nonce mode: sign with a ready value, or keep the entry. -/
def takeNonce (preparer : State) (manager : NonceManager) (entry : ScheduleEntry) (now : Instant) :
    State × NonceManager :=
  match (manager.takeReady now).2 with
  | some (id, _, blockhash) =>
      ({ preparer with signing := some ⟨entry, blockhash, some id, now⟩ },
        (manager.takeReady now).1)
  | none => ({ preparer with pending := some entry }, (manager.takeReady now).1)

/-- Without nonces: sign with the cached blockhash, or keep the entry. -/
def takeBlockhash (preparer : State) (cached : Option Hash) (entry : ScheduleEntry)
    (now : Instant) : State :=
  match cached with
  | some blockhash => { preparer with signing := some ⟨entry, blockhash, none, now⟩ }
  | none => { preparer with pending := some entry }

/-- The transaction of one sender. -/
def Signing.variant (signing : Signing) (signed : UInt8 × Signature) : PreSignedTx where
  senderId := signed.1
  signature := signed.2
  blockhash := signing.blockhash
  preparedAt := signing.preparedAt
  nonceId := signing.nonceId

/-- Put the signed transactions into the pool. -/
def insertVariants (preparer : State) (pool : TxPool) (signed : List (UInt8 × Signature)) :
    State × TxPool :=
  match preparer.signing with
  | some signing =>
      ({ preparer with signing := none },
        pool.insertAll signing.entry.slot signing.entry.tick (signed.map signing.variant))
  | none => (preparer, pool)

/-- The slot below which the pool is dropped now, if it is swept. -/
def evictCutoff (preparer : State) (currentSlot : Nat) (now : Instant) : Option Nat :=
  if saturatingDurationSince now preparer.lastEvict < 500000000 then none
  else if currentSlot = 0 then none
  else some (currentSlot - 4)

/-- Sweep the pool, when half a second has passed. -/
def maybeEvict (preparer : State) (pool : TxPool) (currentSlot : Nat) (now : Instant) :
    State × TxPool :=
  (if saturatingDurationSince now preparer.lastEvict < 500000000 then preparer
    else { preparer with lastEvict := now },
    match evictCutoff preparer currentSlot now with
    | some cutoff => pool.evictBelow cutoff
    | none => pool)

end Preparer

end SenderAnalysis

import SenderAnalysis.Foundations.Effects
import SenderAnalysis.TickTriggerBench.TxPool

/-!
# The preparer of the single-sender bench

The preparer keeps the pool filled. In every cycle it fetches a blockhash, takes out the
transactions whose blockhash has expired, and signs a transaction for every scheduled tick of
the next slots that has none. The bodies of a cycle differ in the amount only: the base
amount and the number of transactions signed before in the cycle.

A transaction of the pool is known by what it is built from; its bytes and its signature are
functions of that. The observer takes transactions out of the pool and moves the current slot
between any two steps of the preparer.
-/

set_option autoImplicit false

namespace SenderAnalysis.TickTriggerBench

/-! ## Transactions -/

inductive Instruction where
  | setComputeUnitPrice (microLamports : Nat)
  | setComputeUnitLimit (units : Nat)
  | transfer (sender receiver : Pubkey) (lamports : Nat)
deriving DecidableEq, Repr

/-- The body of a transaction. -/
structure Transaction where
  payer : Pubkey
  instructions : List Instruction
  blockhash : Hash
deriving DecidableEq, Repr

/-- How transactions are serialized and signed. -/
structure Wallet where
  serialize : Transaction → List UInt8
  sign : Transaction → Signature

/-- A transfer of an amount from the payer to itself, with a tip. -/
def buildSelfTransfer (payer tipAccount : Pubkey)
    (amountLamports priorityFeeMicrolamports heliusTipLamports : Nat) (blockhash : Hash) :
    Transaction where
  payer := payer
  instructions :=
    (if 0 < priorityFeeMicrolamports then [.setComputeUnitPrice priorityFeeMicrolamports]
      else []) ++
      [.setComputeUnitLimit 2000] ++
      (if 0 < heliusTipLamports then [.transfer payer tipAccount heliusTipLamports] else []) ++
      [.transfer payer payer amountLamports]
  blockhash := blockhash

structure ScheduleEntry where
  slot : Nat
  tick : UInt8
deriving DecidableEq, Repr

namespace Preparer

structure Config where
  schedule : List ScheduleEntry
  payer : Pubkey
  tipAccount : Pubkey
  lookAheadSlots : Nat
  amountLamports : Nat
  priorityFeeMicrolamports : Nat
  heliusTipLamports : Nat
deriving Repr

/-- What a transaction of the pool is built from. -/
structure Signed where
  amount : Nat
  blockhash : Hash
  builtAt : Instant
deriving DecidableEq, Repr

/-- The body of a transaction. -/
def body (cfg : Config) (amount : Nat) (blockhash : Hash) : Transaction :=
  buildSelfTransfer cfg.payer cfg.tipAccount amount cfg.priorityFeeMicrolamports
    cfg.heliusTipLamports blockhash

/-- The transaction as it is pooled. -/
def preSigned (cfg : Config) (wallet : Wallet) (signed : Signed) : PreSignedTx where
  serialized := wallet.serialize (body cfg signed.amount signed.blockhash)
  signature := wallet.sign (body cfg signed.amount signed.blockhash)
  blockhash := signed.blockhash
  builtAt := signed.builtAt

/-- A blockhash is used for 50 s. -/
def blockhashMaxAge : Duration := 50000000000

/-- Where the preparer is in a cycle. -/
inductive Phase where
  | fetching
  | expiring (blockhash : Hash) (expired : List PoolKey)
  | looking (blockhash : Hash)
  | signing (blockhash : Hash) (nowSlot : Nat) (entries : List ScheduleEntry) (newSigned : Nat)
deriving DecidableEq, Repr

structure State where
  alreadySigned : HashTable PoolKey Instant := .empty
  pool : HashTable PoolKey Signed := .empty
  currentSlot : Nat := 0
  phase : Phase := .fetching

inductive Counter where
  | preparerBlockhashFail
deriving DecidableEq, Repr

abbrev PreparerEffect := Effect Counter Empty

/-- The keys that were signed too long ago. -/
def expired (signed : HashTable PoolKey Instant) (now : Instant) : List PoolKey :=
  (signed.entries.filter fun entry =>
    blockhashMaxAge ≤ saturatingDurationSince now entry.2).map Sigma.fst

/-- The answer to the request for a blockhash. -/
def fetch (preparer : State) (latest : Option Hash) (now : Instant) :
    State × List PreparerEffect :=
  match preparer.phase, latest with
  | .fetching, some blockhash =>
      ({ preparer with phase := .expiring blockhash (expired preparer.alreadySigned now) }, [])
  | .fetching, none => (preparer, [.fetchAdd .preparerBlockhashFail 1])
  | _, _ => (preparer, [])

/-- An entry is to be signed: it is in the window and is not signed yet. -/
def Due (cfg : Config) (preparer : State) (nowSlot : Nat) (entry : ScheduleEntry) : Prop :=
  nowSlot ≤ entry.slot ∧ entry.slot < (nowSlot + cfg.lookAheadSlots) % 2 ^ 64 ∧
    preparer.alreadySigned.get (entry.slot, entry.tick) = none

instance (cfg : Config) (preparer : State) (nowSlot : Nat) (entry : ScheduleEntry) :
    Decidable (Due cfg preparer nowSlot entry) :=
  inferInstanceAs (Decidable (_ ∧ _ ∧ _))

/-- The amount of the transaction that is signed after others in a cycle. -/
def amountAfter (cfg : Config) (newSigned : Nat) : Nat :=
  saturatingAdd 64 cfg.amountLamports newSigned

/-- Sign a transaction for an entry. -/
def sign (cfg : Config) (preparer : State) (blockhash : Hash) (entry : ScheduleEntry)
    (newSigned : Nat) (builtAt : Instant) : State :=
  { preparer with
    pool := preparer.pool.insert (entry.slot, entry.tick)
      ⟨amountAfter cfg newSigned, blockhash, builtAt⟩
    alreadySigned := preparer.alreadySigned.insert (entry.slot, entry.tick) builtAt }

/-- The next operation of the preparer, with the clock. -/
def advance (cfg : Config) (preparer : State) (now : Instant) : State :=
  match preparer.phase with
  | .fetching => preparer
  | .expiring blockhash (key :: rest) =>
      { preparer with
        alreadySigned := preparer.alreadySigned.remove key
        pool := preparer.pool.remove key
        phase := .expiring blockhash rest }
  | .expiring blockhash [] => { preparer with phase := .looking blockhash }
  | .looking blockhash =>
      -- The observer has not started.
      if preparer.currentSlot = 0 then { preparer with phase := .fetching }
      else { preparer with phase := .signing blockhash preparer.currentSlot cfg.schedule 0 }
  | .signing blockhash nowSlot (entry :: rest) newSigned =>
      if Due cfg preparer nowSlot entry then
        { sign cfg preparer blockhash entry newSigned now with
          phase := .signing blockhash nowSlot rest (newSigned + 1) }
      else { preparer with phase := .signing blockhash nowSlot rest newSigned }
  | .signing _ nowSlot [] _ =>
      { preparer with
        pool := preparer.pool.retain fun key _ => nowSlot - 2 ≤ key.1
        phase := .fetching }

/-- What happens: the preparer's request is answered, the preparer goes on, the observer sees
a slot, or the observer takes a transaction. -/
inductive Act where
  | fetch (latest : Option Hash) (now : Instant)
  | advance (now : Instant)
  | observe (slot : Nat)
  | take (slot : Nat) (tick : UInt8)
deriving DecidableEq, Repr

def step (cfg : Config) (preparer : State) : Act → State × List PreparerEffect
  | .fetch latest now => Preparer.fetch preparer latest now
  | .advance now => (Preparer.advance cfg preparer now, [])
  | .observe slot => ({ preparer with currentSlot := slot }, [])
  | .take slot tick => ({ preparer with pool := preparer.pool.remove (slot, tick) }, [])

def run (cfg : Config) (acts : List Act) : State := (runAll (step cfg) {} acts).1

end Preparer

end SenderAnalysis.TickTriggerBench

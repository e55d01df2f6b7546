import SenderAnalysis.EntrySources.Observation
import SenderAnalysis.Foundations.HashTables
import SenderAnalysis.Foundations.Runs

/-!
# The nonce manager

The manager holds the durable nonce accounts in a list that never changes its
length, and for each of them the state of a small machine: a value is ready, is in
flight in the transactions of a trigger, awaits its successor after a landing was
seen, or is stale after one of the two deadlines passed. `takeReady` hands out the
ready values round-robin. Entries are found by their id, the first entry with the
id, or by their public key, through an index in which the last entry with the key
wins.

Every operation holds the lock of an entry while it looks at its state and changes
it. The changes of one state are the functions of `NonceState`; an operation of the
manager applies one of them to the entry it finds, and `tickTimeouts` to all.
-/

set_option autoImplicit false

namespace SenderAnalysis

/-- The number of a nonce account. -/
abbrev NonceId := UInt16

inductive NonceState where
  | ready (blockhash : Hash)
  | inFlight (blockhashUsed : Hash) (since : Instant)
  | awaitingUpdate (blockhashUsed : Hash) (since : Instant)
  | stale (blockhashUsed : Hash) (since : Instant)
deriving DecidableEq, Repr

namespace NonceState

def isReady : NonceState → Bool
  | ready _ => true
  | inFlight _ _ | awaitingUpdate _ _ | stale _ _ => false

def isStale : NonceState → Bool
  | stale _ _ => true
  | ready _ | inFlight _ _ | awaitingUpdate _ _ => false

/-- The value an entry carries, whatever its state. -/
def carried : NonceState → Hash
  | ready blockhash | inFlight blockhash _ | awaitingUpdate blockhash _ | stale blockhash _ =>
      blockhash

/-- A value observed on the account that differs from the carried one is ready. -/
def accountUpdate (newBlockhash : Hash) (state : NonceState) : NonceState × Bool :=
  if state.carried ≠ newBlockhash then (ready newBlockhash, true) else (state, false)

/-- A landing was seen, and the next value is not known. -/
def observedLanding (now : Instant) : NonceState → NonceState
  | inFlight blockhashUsed _ => awaitingUpdate blockhashUsed now
  | state => state

/-- A landing was seen, and the next value was computed. -/
def landingWithBlockhash (newBlockhash : Hash) : NonceState → NonceState × Bool
  | inFlight _ _ | awaitingUpdate _ _ | stale _ _ => (ready newBlockhash, true)
  | ready blockhash =>
      if blockhash ≠ newBlockhash then (ready newBlockhash, true) else (ready blockhash, false)

/-- A deadline passed. -/
def timeout (now : Instant) (inFlightDeadline awaitingUpdateDeadline : Duration) :
    NonceState → NonceState × Bool
  | inFlight blockhashUsed since =>
      if saturatingDurationSince now since ≥ inFlightDeadline then (stale blockhashUsed now, true)
      else (inFlight blockhashUsed since, false)
  | awaitingUpdate blockhashUsed since =>
      if saturatingDurationSince now since ≥ awaitingUpdateDeadline then
        (stale blockhashUsed now, true)
      else (awaitingUpdate blockhashUsed since, false)
  | state => (state, false)

/-- No landing was seen, and the carried value is presumed unspent. -/
def restoreUnchanged : NonceState → NonceState × Bool
  | inFlight blockhashUsed _ | awaitingUpdate blockhashUsed _ | stale blockhashUsed _ =>
      (ready blockhashUsed, true)
  | ready blockhash => (ready blockhash, false)

/-- The value of the account was fetched again. -/
def fallbackRefresh (observedBlockhash : Hash) : NonceState → NonceState
  | stale blockhashUsed _ =>
      if blockhashUsed = observedBlockhash then ready blockhashUsed else ready observedBlockhash
  | state => state

end NonceState

structure NonceEntry where
  id : NonceId
  pubkey : Pubkey
  state : NonceState
deriving DecidableEq, Repr

/-- A new entry is ready. -/
def NonceEntry.new (id : NonceId) (pubkey : Pubkey) (blockhash : Hash) : NonceEntry :=
  ⟨id, pubkey, .ready blockhash⟩

/-- The index leads from a public key to an entry with that key. -/
def Indexes (pubkeyIndex : HashTable Pubkey Nat) (entries : List NonceEntry) : Prop :=
  ∀ pubkey idx, pubkeyIndex.get pubkey = some idx →
    entries[idx]?.map NonceEntry.pubkey = some pubkey

structure NonceManager where
  entries : List NonceEntry
  pubkeyIndex : HashTable Pubkey Nat
  rrCursor : UInt64
  indexed : Indexes pubkeyIndex entries

/-- What a manager is made from: for every account its id, its key and its value. -/
abbrev NonceAccount := NonceId × Pubkey × Hash

/-- Index the accounts by their key, the last one winning. -/
def indexAccounts (accounts : List NonceAccount) : HashTable Pubkey Nat :=
  (accounts.zipIdx.map fun account => (account.1.2.1, account.2)).foldl
    (fun table entry => table.insert entry.1 entry.2) .empty

theorem foldl_insert_indexes {placed : List (Pubkey × Nat)} {entries : List NonceEntry}
    {table : HashTable Pubkey Nat} (indexed : Indexes table entries)
    (fits : ∀ pair ∈ placed, entries[pair.2]?.map NonceEntry.pubkey = some pair.1) :
    Indexes (placed.foldl (fun table entry => table.insert entry.1 entry.2) table) entries := by
  induction placed generalizing table with
  | nil => exact indexed
  | cons pair rest ih =>
    refine ih ?_ fun later member => fits later (List.mem_cons_of_mem _ member)
    intro pubkey idx found
    rw [HashTable.get_insert] at found
    split at found
    · next same =>
      cases found
      rw [same]
      exact fits pair (List.mem_cons_self ..)
    · exact indexed pubkey idx found

namespace NonceManager

/-- A manager whose accounts are all ready. -/
def new (accounts : List NonceAccount) : NonceManager where
  entries := accounts.map fun account => .new account.1 account.2.1 account.2.2
  pubkeyIndex := indexAccounts accounts
  rrCursor := 0
  indexed := by
    refine foldl_insert_indexes ?_ ?_
    · intro pubkey idx found
      simp at found
    · intro pair member
      obtain ⟨⟨account, idx⟩, placed, rfl⟩ := List.mem_map.mp member
      have found : accounts[idx]? = some account := List.mk_mem_zipIdx_iff_getElem?.mp placed
      simp [found, NonceEntry.new]

/-! ## Finding and changing entries -/

/-- How many entries are in a state that satisfies a predicate. -/
def countInState (manager : NonceManager) (predicate : NonceState → Bool) : Nat :=
  manager.entries.countP fun entry => predicate entry.state

def readyCount (manager : NonceManager) : Nat := manager.countInState NonceState.isReady

/-- Where the first entry with an id stands. -/
def positionOfId (manager : NonceManager) (id : NonceId) : Option Nat :=
  manager.entries.findIdx? fun entry => entry.id == id

/-- The first entry with an id. -/
def getById (manager : NonceManager) (id : NonceId) : Option NonceEntry :=
  (manager.positionOfId id).bind fun idx => manager.entries[idx]?

/-- The entry the index leads to. -/
def getByPubkey (manager : NonceManager) (pubkey : Pubkey) : Option NonceEntry :=
  (manager.pubkeyIndex.get pubkey).bind fun idx => manager.entries[idx]?

/-- Change the state of the entry at a position. -/
def setState (manager : NonceManager) (idx : Nat) (change : NonceState → NonceState) :
    NonceManager where
  entries := manager.entries.modify idx fun entry => { entry with state := change entry.state }
  pubkeyIndex := manager.pubkeyIndex
  rrCursor := manager.rrCursor
  indexed := by
    intro pubkey position found
    have known := manager.indexed pubkey position found
    rw [List.getElem?_modify]
    cases present : manager.entries[position]? with
    | none => simp [present] at known
    | some entry =>
      rw [present] at known
      split <;> simpa using known

/-- Change the state of the entry at a position, when there is a position. -/
def setStateAt (manager : NonceManager) (position : Option Nat)
    (change : NonceState → NonceState) : NonceManager :=
  match position with
  | some idx => manager.setState idx change
  | none => manager

/-- Change the state of every entry. -/
def mapStates (manager : NonceManager) (change : NonceState → NonceState) : NonceManager where
  entries := manager.entries.map fun entry => { entry with state := change entry.state }
  pubkeyIndex := manager.pubkeyIndex
  rrCursor := manager.rrCursor
  indexed := by
    intro pubkey position found
    have known := manager.indexed pubkey position found
    rw [List.getElem?_map, Option.map_map]
    exact known

/-! ## The operations -/

/-- The entry at a position and its value, when it is ready. -/
def readyAt (manager : NonceManager) (idx : Nat) : Option (Nat × NonceEntry × Hash) :=
  match manager.entries[idx]? with
  | some entry =>
      match entry.state with
      | .ready blockhash => some (idx, entry, blockhash)
      | .inFlight _ _ | .awaitingUpdate _ _ | .stale _ _ => none
  | none => none

/-- The first ready entry, from the cursor on. -/
def nextReady (manager : NonceManager) : Option (Nat × NonceEntry × Hash) :=
  let n := manager.entries.length
  let start := manager.rrCursor.toNat % n
  (List.range n).findSome? fun offset => manager.readyAt ((start + offset) % n)

/-- Hand out the first ready value, from the cursor on, and put it in flight. -/
def takeReady (manager : NonceManager) (now : Instant) :
    NonceManager × Option (NonceId × Pubkey × Hash) :=
  if manager.entries.length = 0 then (manager, none)
  else
    match manager.nextReady with
    | some (idx, entry, blockhash) =>
        ({ manager with rrCursor := manager.rrCursor + 1 }.setState idx fun _ =>
            .inFlight blockhash now,
          some (entry.id, entry.pubkey, blockhash))
    | none => ({ manager with rrCursor := manager.rrCursor + 1 }, none)

/-- The state of the account changed on chain. -/
def onAccountUpdate (manager : NonceManager) (pubkey : Pubkey) (newBlockhash : Hash) :
    NonceManager × Bool :=
  (manager.setStateAt (manager.pubkeyIndex.get pubkey) fun state =>
      (state.accountUpdate newBlockhash).1,
    (manager.getByPubkey pubkey).any fun entry => (entry.state.accountUpdate newBlockhash).2)

/-- A transaction of the nonce was seen to land. -/
def onObservedLanding (manager : NonceManager) (nonceId : NonceId) (now : Instant) :
    NonceManager :=
  manager.setStateAt (manager.positionOfId nonceId) (NonceState.observedLanding now)

/-- A transaction of the nonce was seen to land, and the next value was computed. -/
def onLandingWithBlockhash (manager : NonceManager) (nonceId : NonceId) (newBlockhash : Hash) :
    NonceManager × Bool :=
  (manager.setStateAt (manager.positionOfId nonceId) fun state =>
      (state.landingWithBlockhash newBlockhash).1,
    (manager.getById nonceId).any fun entry => (entry.state.landingWithBlockhash newBlockhash).2)

/-- Move the entries past their deadline to the stale state, and list them. -/
def tickTimeouts (manager : NonceManager) (now : Instant)
    (inFlightDeadline awaitingUpdateDeadline : Duration) :
    NonceManager × List (NonceId × Pubkey) :=
  let change := NonceState.timeout now inFlightDeadline awaitingUpdateDeadline
  (manager.mapStates fun state => (change state).1,
    (manager.entries.filter fun entry => (change entry.state).2).map fun entry =>
      (entry.id, entry.pubkey))

/-- No transaction of the nonce was seen to land in time. -/
def restoreUnchanged (manager : NonceManager) (nonceId : NonceId) : NonceManager × Bool :=
  (manager.setStateAt (manager.positionOfId nonceId) fun state => state.restoreUnchanged.1,
    (manager.getById nonceId).any fun entry => entry.state.restoreUnchanged.2)

/-- The account was fetched again. -/
def onFallbackRefresh (manager : NonceManager) (pubkey : Pubkey) (observedBlockhash : Hash) :
    NonceManager :=
  manager.setStateAt (manager.pubkeyIndex.get pubkey)
    (NonceState.fallbackRefresh observedBlockhash)

/-! ## Runs -/

/-- An operation on the manager, with the instant it reads. -/
inductive Operation where
  | takeReady (now : Instant)
  | onAccountUpdate (pubkey : Pubkey) (newBlockhash : Hash)
  | onObservedLanding (nonceId : NonceId) (now : Instant)
  | onLandingWithBlockhash (nonceId : NonceId) (newBlockhash : Hash)
  | tickTimeouts (now : Instant) (inFlightDeadline awaitingUpdateDeadline : Duration)
  | restoreUnchanged (nonceId : NonceId)
  | onFallbackRefresh (pubkey : Pubkey) (observedBlockhash : Hash)
deriving DecidableEq, Repr

/-- Apply one operation, and emit what it hands out. -/
def apply (manager : NonceManager) : Operation → NonceManager × List (NonceId × Pubkey × Hash)
  | .takeReady now => ((manager.takeReady now).1, (manager.takeReady now).2.toList)
  | .onAccountUpdate pubkey new => ((manager.onAccountUpdate pubkey new).1, [])
  | .onObservedLanding id now => (manager.onObservedLanding id now, [])
  | .onLandingWithBlockhash id new => ((manager.onLandingWithBlockhash id new).1, [])
  | .tickTimeouts now inFlight awaiting => ((manager.tickTimeouts now inFlight awaiting).1, [])
  | .restoreUnchanged id => ((manager.restoreUnchanged id).1, [])
  | .onFallbackRefresh pubkey observed => (manager.onFallbackRefresh pubkey observed, [])

/-- Apply the operations one after the other. -/
def applyAll (manager : NonceManager) (operations : List Operation) :
    NonceManager × List (NonceId × Pubkey × Hash) :=
  runAll apply manager operations

end NonceManager

end SenderAnalysis

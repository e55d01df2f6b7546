import SenderAnalysis.FanOut.Nonce.AccountData
import SenderAnalysis.FanOut.Nonce.Frames
import SenderAnalysis.FanOut.Samples
import SenderAnalysis.Foundations.Chunks
import SenderAnalysis.Foundations.FallibleMaps

/-!
# Starting the nonce manager

The accounts of the configuration are fetched in chunks of a hundred, and the manager
starts with them only if every one of them is there, is initialized, and is ours to
advance. What it starts with is then what stood on chain when the chunk of the account was
fetched (`bootstrap_eq_ok`).

The decoding of a public key and the RPC node are parameters. The node answers a call with
the accounts at the keys, in order (`AnswersInOrder`).
-/

set_option autoImplicit false

namespace SenderAnalysis

structure NonceConfigEntry where
  id : NonceId
  pubkey : String
deriving DecidableEq, Repr

structure NonceConfigFile where
  accounts : List NonceConfigEntry

/-- The RPC node: what it answers to each call, in the order of the calls. -/
abbrev Rpc (ε : Type*) := Nat → List Pubkey → Except ε (List (Option AccountData))

/-- The accounts on chain. -/
abbrev Chain := Pubkey → Option AccountData

/-- An answer lists the accounts at the keys, as they are on chain at the time of the
call. -/
def AnswersInOrder {ε : Type*} (rpc : Rpc ε) (chainAt : Nat → Chain) : Prop :=
  ∀ call keys answer, rpc call keys = .ok answer → answer = keys.map (chainAt call)

namespace Bootstrap

/-- How many accounts one call asks for at most. -/
def chunkSize : Nat := 100

/-- Why the bench does not start. The last case stands for the panic of an `unwrap`. -/
inductive Failure (ε : Type*) where
  | invalidPubkey
  | getMultipleAccounts (error : ε)
  | doesNotExist (pubkey : String)
  | parse (pubkey : String) (error : NonceParseError)
  | authorityMismatch (pubkey : String) (got expected : Pubkey)
  | unwrapped
deriving DecidableEq, Repr

/-- The message of a failure, with the message of an RPC error and the digits of a key. -/
def Failure.toString {ε : Type*} (message : ε → String) (digits : Pubkey → String) :
    Failure ε → String
  | invalidPubkey => "invalid pubkey in nonce config"
  | getMultipleAccounts error => "getMultipleAccounts: " ++ message error
  | doesNotExist pubkey => "nonce account " ++ pubkey ++ " does not exist on chain"
  | parse pubkey error => "parse nonce " ++ pubkey ++ ": " ++ error.toString
  | authorityMismatch pubkey got expected =>
      "nonce " ++ pubkey ++ " authority mismatch: got " ++ digits got ++ ", expected " ++
        digits expected
  | unwrapped => "called Result::unwrap() on an Err value"

section Bootstrap

variable {ε : Type*} (pubkeyFromStr : String → Option Pubkey) (rpc : Rpc ε)

/-- The keys of the configuration, if all of them can be decoded. -/
def pubkeysOf (entries : List NonceConfigEntry) : Except (Failure ε) (List Pubkey) :=
  entries.mapM fun entry =>
    match pubkeyFromStr entry.pubkey with
    | some pubkey => .ok pubkey
    | none => .error .invalidPubkey

/-- Fetch one chunk after the other. -/
def fetch : Nat → List (List Pubkey) → Except (Failure ε) (List (Option AccountData))
  | _, [] => .ok []
  | call, chunk :: rest =>
      match rpc call chunk with
      | .error error => .error (.getMultipleAccounts error)
      | .ok batch => (fetch (call + 1) rest).map fun accounts => batch ++ accounts

/-- Look at the account that was fetched for an entry. -/
def check (expectedAuthority : Pubkey) (entry : NonceConfigEntry) :
    Option AccountData → Except (Failure ε) NonceAccount
  | none => .error (.doesNotExist entry.pubkey)
  | some data =>
      match parseNonceAccountData data with
      | .error error => .error (.parse entry.pubkey error)
      | .ok state =>
          if state.authority ≠ expectedAuthority then
            .error (.authorityMismatch entry.pubkey state.authority expectedAuthority)
          else
            match pubkeyFromStr entry.pubkey with
            | some pubkey => .ok (entry.id, pubkey, state.blockhash)
            | none => .error .unwrapped

def bootstrap (config : NonceConfigFile) (expectedAuthority : Pubkey) :
    Except (Failure ε) (List NonceAccount) :=
  match pubkeysOf pubkeyFromStr config.accounts with
  | .error failure => .error failure
  | .ok pubkeys =>
      match fetch rpc 0 (chunks chunkSize pubkeys) with
      | .error failure => .error failure
      | .ok accounts =>
          (config.accounts.zip accounts).mapM fun pair =>
            check pubkeyFromStr expectedAuthority pair.1 pair.2

/-! ## What the chunks fetch -/

variable {rpc} {chainAt : Nat → Chain}

/-- The keys from a chunk on are answered with the accounts at the time of their chunk. -/
theorem fetch_chunksFrom (inOrder : AnswersInOrder rpc chainAt) {fuel : Nat}
    {keys : List Pubkey} (enough : keys.length ≤ fuel) {call : Nat}
    {accounts : List (Option AccountData)}
    (fetched : fetch rpc call (chunksFrom chunkSize fuel keys) = .ok accounts) (idx : Nat) :
    accounts[idx]? = keys[idx]?.map (chainAt (call + idx / chunkSize)) := by
  induction fuel generalizing keys call accounts idx with
  | zero =>
    obtain rfl := List.length_eq_zero_iff.mp (Nat.le_zero.mp enough)
    cases fetched
    rfl
  | succ fuel ih =>
    cases keys with
    | nil =>
      cases fetched
      rfl
    | cons key rest =>
      have shorter : ((key :: rest).drop chunkSize).length ≤ fuel := by
        rw [List.length_drop, List.length_cons, chunkSize] at *
        omega
      rw [chunksFrom, fetch] at fetched
      split at fetched
      · cases fetched
      · next batch answered =>
        cases later : fetch rpc (call + 1)
            (chunksFrom chunkSize fuel ((key :: rest).drop chunkSize)) with
        | error failure =>
          rw [later] at fetched
          cases fetched
        | ok more =>
          rw [later] at fetched
          obtain rfl := Except.ok.inj fetched
          have first := inOrder call _ batch answered
          have length : batch.length = min chunkSize (key :: rest).length := by
            rw [first, List.length_map, List.length_take]
          by_cases inside : idx < batch.length
          · have early : idx / chunkSize = 0 :=
              Nat.div_eq_of_lt (Nat.lt_of_lt_of_le inside (length ▸ Nat.min_le_left ..))
            rw [List.getElem?_append_left inside, first, List.getElem?_map,
              List.getElem?_take_of_lt (by omega), early]
            rfl
          · rw [List.getElem?_append_right (Nat.not_lt.mp inside), ih shorter later,
              List.getElem?_drop]
            by_cases whole : chunkSize ≤ (key :: rest).length
            · rw [length, Nat.min_eq_left whole] at inside ⊢
              have place : call + 1 + (idx - chunkSize) / chunkSize = call + idx / chunkSize := by
                rw [Nat.div_eq_sub_div (by decide) (Nat.not_lt.mp inside)]
                omega
              rw [place, Nat.add_sub_cancel' (Nat.not_lt.mp inside)]
            · -- the only chunk is not a whole one
              rw [List.getElem?_eq_none (by omega), List.getElem?_eq_none (by omega)]
              rfl

/-- The keys are answered with the accounts at the time of their chunk. -/
theorem fetch_chunks (inOrder : AnswersInOrder rpc chainAt) {keys : List Pubkey}
    {accounts : List (Option AccountData)}
    (fetched : fetch rpc 0 (chunks chunkSize keys) = .ok accounts) :
    accounts = keys.mapIdx fun idx key => chainAt (idx / chunkSize) key := by
  refine List.ext_getElem? fun idx => ?_
  rw [List.getElem?_mapIdx, fetch_chunksFrom inOrder (Nat.le_refl _) fetched, Nat.zero_add]

/-- The chunks are fetched when every call is answered. -/
theorem fetch_isOk (call : Nat) (pieces : List (List Pubkey)) :
    (∃ accounts, fetch rpc call pieces = .ok accounts) ↔
      ∀ number chunk, pieces[number]? = some chunk →
        ∃ answer, rpc (call + number) chunk = .ok answer := by
  induction pieces generalizing call with
  | nil => simp [fetch]
  | cons piece rest ih =>
    have split : (∀ number chunk, (piece :: rest)[number]? = some chunk →
        ∃ answer, rpc (call + number) chunk = .ok answer) ↔
        (∃ answer, rpc call piece = .ok answer) ∧ ∀ number chunk, rest[number]? = some chunk →
          ∃ answer, rpc (call + 1 + number) chunk = .ok answer := by
      constructor
      · intro each
        refine ⟨each 0 piece rfl, fun number chunk found => ?_⟩
        rw [Nat.add_assoc, Nat.add_comm 1]
        exact each (number + 1) chunk found
      · rintro ⟨first, others⟩ number chunk found
        cases number with
        | zero =>
          obtain rfl := Option.some.inj found
          exact first
        | succ number =>
          rw [Nat.add_comm number, ← Nat.add_assoc]
          exact others number chunk found
    rw [split, ← ih, fetch]
    cases rpc call piece with
    | error error => simp
    | ok batch => cases fetch rpc (call + 1) rest <;> simp [Except.map]

theorem fetch_not_unwrapped (rpc : Rpc ε) (call : Nat) (pieces : List (List Pubkey)) :
    fetch rpc call pieces ≠ .error .unwrapped := by
  induction pieces generalizing call with
  | nil => simp [fetch]
  | cons piece rest ih =>
    have later := ih (call + 1)
    rw [fetch]
    cases rpc call piece with
    | error error => simp
    | ok batch => cases others : fetch rpc (call + 1) rest <;> simp_all [Except.map]

/-! ## What the bench starts with -/

/-- What the manager starts with for an entry of the configuration: the value that the
account had on chain when its chunk was fetched, under the expected authority. -/
structure StartsWith (chainAt : Nat → Chain) (expectedAuthority : Pubkey) (idx : Nat)
    (entry : NonceConfigEntry) (account : NonceAccount) : Prop where
  id : account.1 = entry.id
  pubkey : pubkeyFromStr entry.pubkey = some account.2.1
  onChain : ∃ data, chainAt (idx / chunkSize) account.2.1 = some data ∧
    parseNonceAccountData data = .ok ⟨expectedAuthority, account.2.2⟩

theorem pubkeysOf_eq_ok (entries : List NonceConfigEntry) (pubkeys : List Pubkey) :
    (pubkeysOf pubkeyFromStr entries : Except (Failure ε) (List Pubkey)) = .ok pubkeys ↔
      List.Forall₂ (fun entry pubkey => pubkeyFromStr entry.pubkey = some pubkey) entries
        pubkeys := by
  rw [pubkeysOf, mapM_eq_ok]
  refine iff_of_eq (congrArg (fun relation => List.Forall₂ relation entries pubkeys) ?_)
  funext entry pubkey
  cases pubkeyFromStr entry.pubkey <;> simp

theorem decodes_of_mem {entries : List NonceConfigEntry} {pubkeys : List Pubkey}
    (decodes : (pubkeysOf pubkeyFromStr entries : Except (Failure ε) (List Pubkey)) = .ok pubkeys)
    {entry : NonceConfigEntry} (member : entry ∈ entries) :
    ∃ pubkey, pubkeyFromStr entry.pubkey = some pubkey := by
  obtain ⟨length, each⟩ := forall₂_iff_getElem?.mp ((pubkeysOf_eq_ok pubkeyFromStr _ _).mp decodes)
  obtain ⟨idx, present⟩ := List.mem_iff_getElem?.mp member
  obtain ⟨inside, _⟩ := List.getElem?_eq_some_iff.mp present
  exact ⟨_, each idx entry _ present (List.getElem?_eq_getElem (length ▸ inside))⟩

theorem check_eq_ok (expectedAuthority : Pubkey) (entry : NonceConfigEntry)
    (fetched : Option AccountData) (account : NonceAccount) :
    (check pubkeyFromStr expectedAuthority entry fetched :
        Except (Failure ε) NonceAccount) = .ok account ↔
      account.1 = entry.id ∧ pubkeyFromStr entry.pubkey = some account.2.1 ∧
        ∃ data, fetched = some data ∧
          parseNonceAccountData data = .ok ⟨expectedAuthority, account.2.2⟩ := by
  obtain ⟨id, pubkey, value⟩ := account
  cases fetched with
  | none => simp [check]
  | some data =>
    cases parsed : parseNonceAccountData data with
    | error error => simp [check, parsed]
    | ok state =>
      obtain ⟨authority, blockhash⟩ := state
      by_cases ours : authority = expectedAuthority
      · cases decoded : pubkeyFromStr entry.pubkey <;>
          simp [check, parsed, ours, decoded, eq_comm]
      · simp [check, parsed, ours]

/-- The keys of the accounts are those the configuration decodes to. -/
theorem pubkeysOf_of_startsWith {entries : List NonceConfigEntry} {accounts : List NonceAccount}
    {expectedAuthority : Pubkey} (length : accounts.length = entries.length)
    (each : ∀ idx entry account, entries[idx]? = some entry → accounts[idx]? = some account →
      StartsWith pubkeyFromStr chainAt expectedAuthority idx entry account) :
    (pubkeysOf pubkeyFromStr entries : Except (Failure ε) (List Pubkey)) =
      .ok (accounts.map fun account => account.2.1) := by
  rw [pubkeysOf_eq_ok, List.forall₂_map_right_iff, forall₂_iff_getElem?]
  exact ⟨length.symm, fun idx entry account present there =>
    (each idx entry account present there).pubkey⟩

/-- **The bench starts exactly when every call is answered and every configured account is
on chain, initialized and ours, and it starts with these accounts**, in the order of the
configuration. -/
theorem bootstrap_eq_ok (inOrder : AnswersInOrder rpc chainAt) (config : NonceConfigFile)
    (expectedAuthority : Pubkey) (accounts : List NonceAccount) :
    bootstrap pubkeyFromStr rpc config expectedAuthority = .ok accounts ↔
      (∀ call chunk, (chunks chunkSize (accounts.map fun account => account.2.1))[call]? =
        some chunk → ∃ answer, rpc call chunk = .ok answer) ∧
      accounts.length = config.accounts.length ∧
      ∀ idx entry account, config.accounts[idx]? = some entry → accounts[idx]? = some account →
        StartsWith pubkeyFromStr chainAt expectedAuthority idx entry account := by
  constructor
  · intro started
    unfold bootstrap at started
    split at started
    · cases started
    · next pubkeys decodes =>
      split at started
      · cases started
      · next fetched found =>
        obtain ⟨length, decoded⟩ :=
          forall₂_iff_getElem?.mp ((pubkeysOf_eq_ok pubkeyFromStr _ _).mp decodes)
        obtain ⟨length', checked⟩ := forall₂_iff_getElem?.mp ((mapM_eq_ok _ _ _).mp started)
        have answers := fetch_chunks inOrder found
        rw [List.length_zip, answers, List.length_mapIdx, ← length, Nat.min_self] at length'
        have each : ∀ idx entry account, config.accounts[idx]? = some entry →
            accounts[idx]? = some account →
              StartsWith pubkeyFromStr chainAt expectedAuthority idx entry account := by
          intro idx entry account present there
          obtain ⟨inside, _⟩ := List.getElem?_eq_some_iff.mp present
          have key := List.getElem?_eq_getElem (show idx < pubkeys.length by omega)
          have answer : fetched[idx]? = some (chainAt (idx / chunkSize) pubkeys[idx]) := by
            rw [answers, List.getElem?_mapIdx, key, Option.map_some]
          have passed := checked idx (entry, _) account
            (List.getElem?_zip_eq_some.mpr ⟨present, answer⟩) there
          obtain ⟨own, decodes', data, onChain, parsed⟩ := (check_eq_ok ..).mp passed
          have same : pubkeys[idx] = account.2.1 :=
            Option.some.inj ((decoded idx entry _ present key).symm.trans decodes')
          exact ⟨own, decodes', data, same ▸ onChain, parsed⟩
        have keys : accounts.map (fun account => account.2.1) = pubkeys :=
          Except.ok.inj ((pubkeysOf_of_startsWith pubkeyFromStr length'.symm each).symm.trans
            decodes)
        have calls := (fetch_isOk 0 (chunks chunkSize pubkeys)).mp ⟨fetched, found⟩
        simp only [Nat.zero_add] at calls
        exact ⟨keys ▸ calls, length'.symm, each⟩
  · rintro ⟨calls, length, each⟩
    obtain ⟨fetched, found⟩ :=
      (@fetch_isOk _ rpc 0 (chunks chunkSize (accounts.map fun account => account.2.1))).mpr
        (by simpa using calls)
    have answers := fetch_chunks inOrder found
    rw [bootstrap, pubkeysOf_of_startsWith pubkeyFromStr length each]
    simp only [found]
    rw [mapM_eq_ok, forall₂_iff_getElem?, List.length_zip, answers, List.length_mapIdx,
      List.length_map, length, Nat.min_self]
    refine ⟨rfl, fun idx pair account present there => ?_⟩
    obtain ⟨configured, answer⟩ := List.getElem?_zip_eq_some.mp present
    have starts := each idx pair.1 account configured there
    rw [List.getElem?_mapIdx, List.getElem?_map, there] at answer
    obtain ⟨data, onChain, parsed⟩ := starts.onChain
    exact (check_eq_ok ..).mpr ⟨starts.id, starts.pubkey, data,
      (Option.some.inj answer).symm.trans onChain, parsed⟩

/-- The second decoding of a key does not panic, because the first one succeeded. -/
theorem bootstrap_not_unwrapped (rpc : Rpc ε) (config : NonceConfigFile)
    (expectedAuthority : Pubkey) :
    bootstrap pubkeyFromStr rpc config expectedAuthority ≠ .error .unwrapped := by
  intro panicked
  unfold bootstrap at panicked
  split at panicked
  · next failure undecoded =>
    obtain ⟨_, entry, _, _, _, fails⟩ := (mapM_eq_error _ _ _).mp undecoded
    obtain rfl := Except.error.inj panicked
    split at fails <;> cases fails
  · next pubkeys decodes =>
    split at panicked
    · next failure unanswered =>
      obtain rfl := Except.error.inj panicked
      exact absurd unanswered (fetch_not_unwrapped rpc 0 _)
    · next fetched found =>
      obtain ⟨before, ⟨entry, answer⟩, after, split', _, fails⟩ :=
        (mapM_eq_error _ _ _).mp panicked
      have configured : entry ∈ config.accounts :=
        (List.of_mem_zip (split' ▸ by simp : (entry, answer) ∈ config.accounts.zip fetched)).1
      obtain ⟨pubkey, decoded⟩ := decodes_of_mem pubkeyFromStr decodes configured
      unfold check at fails
      split at fails
      · cases fails
      · split at fails
        · cases fails
        · split at fails
          · cases fails
          · rw [decoded] at fails
            cases fails

end Bootstrap

/-! ## Accounts that advance between two calls -/

/-- The data of an initialized account. -/
def initializedData (authority : Pubkey) (blockhash : Hash) : AccountData :=
  nonceAccountData (Vector.replicate 4 0) 1 ⟨authority, blockhash⟩ (List.replicate 8 0)

/-- The value of every account at a call. -/
def advancingValue (call : Nat) : Hash := Samples.hash (if call = 0 then 2 else 3)

def advancingChain (call : Nat) : Chain :=
  fun _ => some (initializedData (Samples.hash 9) (advancingValue call))

/-- A key that is told apart by the length of its text. -/
def sampleKey (text : String) : Pubkey := Samples.hash (UInt8.ofNat text.length)

def sampleEntry (place : Nat) : NonceConfigEntry :=
  ⟨.ofNat place, String.ofList (List.replicate place 'k')⟩

/-- More accounts than one call asks for. -/
def twoChunks : NonceConfigFile := ⟨(List.range 101).map sampleEntry⟩

/-- The manager starts with the value that an account had when its chunk was fetched. -/
theorem bootstrap_eq_ok_twoChunks :
    bootstrap (fun text => some (sampleKey text)) (fun call keys => (.ok (keys.map
        (advancingChain call)) : Except Unit (List (Option AccountData)))) twoChunks
        (Samples.hash 9) =
      .ok ((List.range 101).map fun place =>
        (.ofNat place, sampleKey (sampleEntry place).pubkey,
          if place < 100 then Samples.hash 2 else Samples.hash 3)) := by
  have inOrder : AnswersInOrder (fun call keys => (.ok (keys.map (advancingChain call)) :
      Except Unit (List (Option AccountData)))) advancingChain :=
    fun call keys answer answered => (Except.ok.inj answered).symm
  refine (bootstrap_eq_ok _ inOrder twoChunks (Samples.hash 9) _).mpr
    ⟨fun call chunk _ => ⟨_, rfl⟩, by simp [twoChunks], ?_⟩
  intro idx entry account present there
  rw [twoChunks, List.getElem?_map, Option.map_eq_some_iff] at present
  rw [List.getElem?_map, Option.map_eq_some_iff] at there
  obtain ⟨place, ranged, rfl⟩ := present
  obtain ⟨place', ranged', rfl⟩ := there
  obtain ⟨inside, own⟩ := List.getElem?_eq_some_iff.mp ranged
  obtain rfl := Option.some.inj (ranged.symm.trans ranged')
  rw [List.getElem_range] at own
  subst own
  have value : advancingValue (idx / chunkSize) =
      if idx < 100 then Samples.hash 2 else Samples.hash 3 := by
    rw [advancingValue, apply_ite Samples.hash]
    exact if_congr (Nat.div_eq_zero_iff.trans (by simp [chunkSize])) rfl rfl
  refine ⟨rfl, rfl, initializedData (Samples.hash 9) (advancingValue (idx / chunkSize)), rfl, ?_⟩
  rw [value]
  exact (parse_eq_ok _ _).mpr ⟨Vector.replicate 4 0, List.replicate 8 0, by decide, rfl⟩

end Bootstrap

end SenderAnalysis

import SenderAnalysis.FanOut.Nonce.RpcPoller
import SenderAnalysis.Foundations.Traces

/-!
# How stale nonces come back

Nobody but the poller makes a nonce stale, and it does so in its sweep only. So a nonce that
is stale when its answer is read has been stale since the poller asked for it, and nobody
handed it out in between. The value it comes back with is the one that the node answered
for it after the nonce had been given up (`refresh_current`). A round that ends without an
error leaves a nonce stale only if the node answered nothing for it that could be read
(`round_leaves`), and every round ends, whatever the other threads do in between
(`round_ends`). Where the node answers with the accounts as they are on chain
(`AnswersCurrent`), the value is the one that the account had on chain at that moment, or
the account there could not be read.
-/

set_option autoImplicit false

namespace SenderAnalysis.RpcPoller

open NonceManager (Operation)

/-! ## Only the poller makes nonces stale -/

section Stale

variable {manager : NonceManager} {idx : Nat} {after : NonceEntry}

theorem stale_of_setStateAt {target : Option Nat} {change : NonceState → NonceState}
    (never : ∀ state, (change state).isStale = true → change state = state)
    (present : (manager.setStateAt target change).entries[idx]? = some after)
    (stale : after.state.isStale = true) : manager.entries[idx]? = some after := by
  rw [NonceManager.setStateAt_getElem?, Option.map_eq_some_iff] at present
  obtain ⟨before, found, rfl⟩ := present
  rw [found]
  split
  · next here =>
    rw [if_pos here] at stale
    rw [never before.state stale]
  · rfl

theorem stale_of_onFallbackRefresh {pubkey : Pubkey} {observed : Hash}
    (present : (manager.onFallbackRefresh pubkey observed).entries[idx]? = some after)
    (stale : after.state.isStale = true) : manager.entries[idx]? = some after := by
  refine stale_of_setStateAt (fun state isStale => ?_) present stale
  rw [NonceState.fallbackRefresh_eq] at isStale ⊢
  split at isStale
  · cases isStale
  · next other => rw [if_neg other]

theorem stale_of_foreign (operation : Foreign)
    (present : (manager.apply operation.1).1.entries[idx]? = some after)
    (stale : after.state.isStale = true) : manager.entries[idx]? = some after := by
  obtain ⟨operation, foreign⟩ := operation
  cases operation with
  | takeReady now =>
    have inside : idx < manager.entries.length := by
      rw [← NonceManager.apply_length (.takeReady now)]
      exact (List.getElem?_eq_some_iff.mp present).1
    rcases NonceManager.takeReady_getElem? (List.getElem?_eq_getElem inside) now with
      same | ⟨_, flying⟩
    · exact (List.getElem?_eq_getElem inside).trans (same.symm.trans present)
    · obtain rfl := Option.some.inj (flying.symm.trans present)
      cases stale
  | onAccountUpdate pubkey new =>
    refine stale_of_setStateAt (fun state isStale => ?_) present stale
    unfold NonceState.accountUpdate at isStale ⊢
    split at isStale
    · cases isStale
    · next same => rw [if_neg same]
  | onObservedLanding id now =>
    refine stale_of_setStateAt (fun state isStale => ?_) present stale
    cases state with
    | inFlight _ _ => cases isStale
    | ready _ | awaitingUpdate _ _ | stale _ _ => rfl
  | onLandingWithBlockhash id new =>
    refine stale_of_setStateAt (fun state isStale => ?_) present stale
    cases state with
    | ready blockhash =>
      simp only [NonceState.landingWithBlockhash] at isStale
      split at isStale <;> cases isStale
    | inFlight _ _ | awaitingUpdate _ _ | stale _ _ => cases isStale
  | restoreUnchanged id =>
    refine stale_of_setStateAt (fun state isStale => ?_) present stale
    rw [NonceState.restoreUnchanged_eq] at isStale
    cases isStale
  | tickTimeouts _ _ _ | onFallbackRefresh _ _ => cases foreign

end Stale

/-- A nonce that is stale after a step was so before, unless the poller sweeps. -/
theorem stale_before {cfg : Config} {state : State} {input : Input} {idx : Nat}
    {after : NonceEntry} (awake : state.phase.isSweeping = false)
    (present : (step cfg state input).1.manager.entries[idx]? = some after)
    (stale : after.state.isStale = true) : state.manager.entries[idx]? = some after := by
  have does := does_step cfg state input
  generalize step cfg state input = result at does present
  cases does with
  | nothing _ _ | wake _ _ | swept _ _ _ _ _ _ _ _ | look _ _ _ _ _ _ | noneStale _ _ _ _
  | listed _ _ _ _ _ | ask _ _ _ _ _ | skip _ _ _ _ _ _ _ _ | answered _ _ _ _ | finish _ _ _
  | fail _ _ _ _ | onChain _ _ => exact present
  | sweep answer now position newStale newStale' entry phase found =>
    rw [phase] at awake
    cases awake
  | refresh answer pubkey account blockhash answers left refreshed phase found =>
    exact stale_of_onFallbackRefresh present stale
  | elsewhere operation => exact stale_of_foreign operation present stale

/-! ## What the poller asked for -/

/-- The state after some inputs. -/
def stateAfter (cfg : Config) (start : State) (past : List Input) : State :=
  (run cfg start past).1

theorem stateAfter_concat (cfg : Config) (start : State) (past : List Input) (input : Input) :
    stateAfter cfg start (past ++ [input]) = (step cfg (stateAfter cfg start past) input).1 := by
  rw [stateAfter, run, runAll_concat]
  rfl

/-- The poller has been in the batch of its round since some moment. -/
abbrev InBatch (cfg : Config) (start : State) : List Input → List Input → Prop :=
  Throughout fun moment => (stateAfter cfg start moment).phase.inBatch = true

/-- At its next step the poller asks for a key, and the node answers a value for it. -/
def Answered (cfg : Config) (start : State) (asked : List Input) (answer : Accounts)
    (pubkey : Pubkey) (value : Option Hash) : Prop :=
  ∃ chunk place, (stateAfter cfg start asked).phase.called = some chunk ∧
    chunk[place]? = some pubkey ∧ valueAt answer place = value

/-- In its round, the poller asked for a key, and the node answered a value for it. -/
def AskedFor (cfg : Config) (start : State) (past : List Input) (pubkey : Pubkey)
    (value : Option Hash) : Prop :=
  ∃ asked answer, asked ++ [.proceed answer] <+: past ∧
    Answered cfg start asked answer pubkey value ∧ InBatch cfg start asked past

/-- A step that is a call is answered with the accounts as they are on chain. -/
def AnsweredNow (state : State) : Input → Prop
  | .proceed answer => ∀ chunk ∈ state.phase.called, answer = chunk.map state.chain
  | .wake _ | .fail | .elsewhere _ | .onChain _ _ => True

instance (state : State) (input : Input) : Decidable (AnsweredNow state input) := by
  cases input <;> unfold AnsweredNow <;> infer_instance

/-- The node answers every call with the accounts as they are on chain at that moment. -/
def AnswersCurrent (cfg : Config) (start : State) : List Input → Prop :=
  EachAfter fun before input => AnsweredNow (stateAfter cfg start before) input

/-- What such a node answers for a key is the value of its account on chain. -/
theorem Answered.onChain {cfg : Config} {start : State} {past asked : List Input}
    {answer : Accounts} {pubkey : Pubkey} {value : Option Hash}
    (answered : Answered cfg start asked answer pubkey value)
    (current : AnswersCurrent cfg start past) (earlier : asked ++ [.proceed answer] <+: past) :
    readable ((stateAfter cfg start asked).chain pubkey) = value := by
  obtain ⟨chunk, place, called, own, given⟩ := answered
  obtain ⟨rest, split⟩ := earlier
  have now := current asked (.proceed answer) rest (by simp [← split]) chunk called
  rw [← given, now, valueAt, List.getElem?_map, own]
  rfl

/-- A manager with two nonces, which are handed out and never heard of again. One account
then advances and the other is closed. -/
def sampleConfig : Config := ⟨45, 15⟩

def sampleStart : State where
  manager := .new [(7, Samples.hash 1, Samples.hash 2), (8, Samples.hash 4, Samples.hash 5)]
  chain := Function.update (fun _ => none) (Samples.hash 4)
    (some (Bootstrap.initializedData (Samples.hash 9) (Samples.hash 5)))

/-- The account with which the first nonce advanced. -/
def sampleAccount : Option AccountData :=
  some (Bootstrap.initializedData (Samples.hash 9) (Samples.hash 3))

/-- The poller sweeps and lists, the accounts change, it asks, and another thread looks for
a nonce before the answer is read. -/
def sampleInputs : List Input :=
  [.elsewhere ⟨.takeReady 0, rfl⟩, .elsewhere ⟨.takeReady 1, rfl⟩, .wake 100] ++
    List.replicate 5 (.proceed []) ++
    [.onChain (Samples.hash 1) sampleAccount, .onChain (Samples.hash 4) none, .proceed [],
      .proceed [sampleAccount, none], .elsewhere ⟨.takeReady 101, rfl⟩]

section Rounds

variable {cfg : Config} {start : State} {past : List Input}

theorem AskedFor.concat {pubkey : Pubkey} {value : Option Hash}
    (asked : AskedFor cfg start past pubkey value) {input : Input}
    (still : (stateAfter cfg start (past ++ [input])).phase.inBatch = true) :
    AskedFor cfg start (past ++ [input]) pubkey value := by
  obtain ⟨moment, answer, earlier, answered, period⟩ := asked
  exact ⟨moment, answer, earlier.trans (List.prefix_append past [input]), answered,
    period.concat still⟩

/-- What is asked for at the last step. -/
theorem AskedFor.last {chunk : List Pubkey} {left : List (List Pubkey)} {refreshed : Nat}
    (asking : (stateAfter cfg start past).phase = .asking (chunk :: left) refreshed)
    {answer : Accounts}
    (still : (stateAfter cfg start (past ++ [.proceed answer])).phase.inBatch = true) {place : Nat}
    {pubkey : Pubkey} (own : chunk[place]? = some pubkey) :
    AskedFor cfg start (past ++ [.proceed answer]) pubkey (valueAt answer place) := by
  refine ⟨past, answer, List.prefix_refl _, ⟨chunk, place, by rw [asking]; rfl, own, rfl⟩, ?_⟩
  exact (throughout_self (by rw [asking]; rfl)).concat still

/-- What the poller reads was asked for in this round. -/
theorem answers_asked (asleep : start.phase = .sleeping)
    {answers : List (Pubkey × Option AccountData)} {left : List (List Pubkey)} {refreshed : Nat}
    (phase : (stateAfter cfg start past).phase = .refreshing answers left refreshed) :
    ∀ answer ∈ answers, AskedFor cfg start past answer.1 (readable answer.2) := by
  induction past using List.reverseRecOn generalizing answers left refreshed with
  | nil =>
    rw [show (stateAfter cfg start []).phase = .sleeping from asleep] at phase
    cases phase
  | append_singleton past input ih =>
    intro answer member
    have still : (stateAfter cfg start (past ++ [input])).phase.inBatch = true := by
      rw [phase]
      rfl
    have does := does_step cfg (stateAfter cfg start past) input
    rw [stateAfter_concat] at phase
    generalize step cfg (stateAfter cfg start past) input = result at does phase
    cases does with
    | nothing _ _ | elsewhere _ | onChain _ _ => exact (ih phase answer member).concat still
    | ask given chunk left refreshed asking =>
      obtain ⟨rfl, -, -⟩ := Phase.refreshing.inj phase
      obtain ⟨place, found⟩ := List.mem_iff_getElem?.mp member
      obtain ⟨own, account⟩ := List.getElem?_zip_eq_some.mp found
      have asked := AskedFor.last asking still own
      rwa [valueAt, account, Option.bind_some] at asked
    | refresh _ pubkey account blockhash answers left refreshed reading found =>
      obtain ⟨rfl, -, -⟩ := Phase.refreshing.inj phase
      exact (ih reading answer (List.mem_cons_of_mem _ member)).concat still
    | skip _ pubkey account answers left refreshed reading unreadable =>
      obtain ⟨rfl, -, -⟩ := Phase.refreshing.inj phase
      exact (ih reading answer (List.mem_cons_of_mem _ member)).concat still
    | wake _ _ | sweep _ _ _ _ _ _ _ _ | swept _ _ _ _ _ _ _ _ | look _ _ _ _ _ _
    | noneStale _ _ _ _ | listed _ _ _ _ _ | answered _ _ _ _ | finish _ _ _ | fail _ _ _ _ =>
      cases phase

/-- A nonce that is stale now has been so for as long as the poller is in its batch. -/
theorem stale_throughout {since : List Input} (earlier : since <+: past)
    (period : InBatch cfg start since past) {idx : Nat} {entry : NonceEntry}
    (present : (stateAfter cfg start past).manager.entries[idx]? = some entry)
    (stale : entry.state.isStale = true) :
    Throughout (fun moment => (stateAfter cfg start moment).manager.entries[idx]? = some entry)
      since past := by
  refine throughout_of_last earlier period present fun moment last batch later => ?_
  have awake : (stateAfter cfg start moment).phase.isSweeping = false := by
    cases phase : (stateAfter cfg start moment).phase with
    | sweeping _ _ _ =>
      rw [phase] at batch
      cases batch
    | sleeping | listing _ _ | asking _ _ | refreshing _ _ _ => rfl
  rw [stateAfter_concat] at later
  exact stale_before awake later stale

/-- **A stale nonce comes back with the value that the node answered for it, and when the
node was asked it had been given up.** From then on it has been stale, so nobody else could
hand it out or change it. -/
theorem refresh_current (cfg : Config) (start : State) (asleep : start.phase = .sleeping)
    (past : List Input) (answer : Accounts) (idx : Nat) (before after : NonceEntry)
    (present : (stateAfter cfg start past).manager.entries[idx]? = some before)
    (stale : before.state.isStale = true)
    (next : (stateAfter cfg start (past ++ [.proceed answer])).manager.entries[idx]? = some after)
    (changed : after ≠ before) :
    ∃ asked given blockhash, asked ++ [.proceed given] <+: past ∧
      Answered cfg start asked given before.pubkey (some blockhash) ∧
      after = { before with state := .ready blockhash } ∧
      Throughout (fun moment => (stateAfter cfg start moment).manager.entries[idx]? = some before)
        asked past ∧
      (AnswersCurrent cfg start past →
        readable ((stateAfter cfg start asked).chain before.pubkey) = some blockhash) := by
  have does := does_step cfg (stateAfter cfg start past) (.proceed answer)
  rw [stateAfter_concat] at next
  generalize step cfg (stateAfter cfg start past) (.proceed answer) = result at does next
  have same : (stateAfter cfg start past).manager.entries[idx]? = some after → False := fun same =>
    changed (Option.some.inj (same.symm.trans present))
  cases does with
  | nothing _ _ | swept _ _ _ _ _ _ _ _ | look _ _ _ _ _ _ | noneStale _ _ _ _
  | listed _ _ _ _ _ | ask _ _ _ _ _ | skip _ _ _ _ _ _ _ _ | answered _ _ _ _
  | finish _ _ _ => exact (same next).elim
  | sweep _ now position newStale newStale' entry phase found =>
    change (sweepEntry cfg now _ position).entries[idx]? = some after at next
    rw [sweepEntry, NonceManager.setState_getElem?, present, Option.map_some,
      Option.some.injEq] at next
    have resting : (before.state.timeout now cfg.inFlightDeadline
        cfg.awaitingUpdateDeadline).1 = before.state := by
      cases state : before.state with
      | stale _ _ => rfl
      | ready _ | inFlight _ _ | awaitingUpdate _ _ =>
        rw [state] at stale
        cases stale
    rw [resting, ite_self] at next
    exact (changed next.symm).elim
  | refresh _ pubkey account blockhash answers left refreshed phase found =>
    change (NonceManager.onFallbackRefresh _ pubkey blockhash).entries[idx]? = some after at next
    rw [NonceManager.onFallbackRefresh, NonceManager.setStateAt_getElem?, present,
      Option.map_some, Option.some.injEq] at next
    split at next
    · next leads =>
      have own : before.pubkey = pubkey := by
        have known := (stateAfter cfg start past).manager.indexed pubkey idx leads
        rw [present] at known
        exact Option.some.inj known
      obtain ⟨asked, given, earlier, answered, period⟩ :=
        answers_asked asleep phase _ (List.mem_cons_self ..)
      rw [found, ← own] at answered
      refine ⟨asked, given, blockhash, earlier, answered, ?_,
        stale_throughout ((List.prefix_append _ _).trans earlier) period present stale,
        fun current => answered.onChain current earlier⟩
      rw [← next, NonceState.fallbackRefresh_eq, if_pos stale]
    · exact (changed next.symm).elim

theorem sampleInputs_answersCurrent : AnswersCurrent sampleConfig sampleStart sampleInputs := by
  unfold AnswersCurrent
  decide +kernel

/-- The account advanced, and the poller finds its value on chain. -/
theorem refresh_current_sample :
    ∃ asked given blockhash, asked ++ [.proceed given] <+: sampleInputs ∧
      Answered sampleConfig sampleStart asked given (Samples.hash 1) (some blockhash) ∧
      (⟨7, Samples.hash 1, .ready (Samples.hash 3)⟩ : NonceEntry) =
        ⟨7, Samples.hash 1, .ready blockhash⟩ ∧
      Throughout (fun moment => (stateAfter sampleConfig sampleStart moment).manager.entries[0]? =
        some ⟨7, Samples.hash 1, .stale (Samples.hash 2) 100⟩) asked sampleInputs ∧
      readable ((stateAfter sampleConfig sampleStart asked).chain (Samples.hash 1)) =
        some blockhash := by
  obtain ⟨asked, given, blockhash, earlier, answered, ready, waits, onChain⟩ :=
    refresh_current sampleConfig sampleStart rfl sampleInputs [] 0
      ⟨7, Samples.hash 1, .stale (Samples.hash 2) 100⟩ ⟨7, Samples.hash 1, .ready (Samples.hash 3)⟩
      (by decide +kernel) rfl (by decide +kernel) (by decide)
  exact ⟨asked, given, blockhash, earlier, answered, ready, waits,
    onChain sampleInputs_answersCurrent⟩

/-! ## What a round leaves stale -/

/-- The keys that the poller has still to look at in its batch. -/
def Phase.keysLeft : Phase → List Pubkey
  | .asking left _ => left.flatten
  | .refreshing answers left _ => answers.map Prod.fst ++ left.flatten
  | .sleeping | .sweeping _ _ _ | .listing _ _ => []

/-- The poller does not lose sight of a stale nonce. -/
structure Covered (cfg : Config) (start : State) (past : List Input) (idx : Nat)
    (pubkey : Pubkey) : Prop where
  listed : ∀ position stalePubkeys,
    (stateAfter cfg start past).phase = .listing position stalePubkeys → idx < position →
      pubkey ∈ stalePubkeys
  batch : (stateAfter cfg start past).phase.inBatch = true →
    pubkey ∈ (stateAfter cfg start past).phase.keysLeft ∨ AskedFor cfg start past pubkey none

theorem step_pubkeyIndex (cfg : Config) (state : State) (input : Input) :
    (step cfg state input).1.manager.pubkeyIndex = state.manager.pubkeyIndex := by
  have does := does_step cfg state input
  generalize step cfg state input = result at does
  cases does with
  | elsewhere operation => exact NonceManager.apply_pubkeyIndex operation.1
  | refresh _ pubkey account blockhash answers left refreshed phase found =>
    exact NonceManager.apply_pubkeyIndex (.onFallbackRefresh pubkey blockhash)
  | nothing _ _ | wake _ _ | sweep _ _ _ _ _ _ _ _ | swept _ _ _ _ _ _ _ _ | look _ _ _ _ _ _
  | noneStale _ _ _ _ | listed _ _ _ _ _ | ask _ _ _ _ _ | skip _ _ _ _ _ _ _ _
  | answered _ _ _ _ | finish _ _ _ | fail _ _ _ _ | onChain _ _ => rfl

theorem stateAfter_pubkeyIndex (cfg : Config) (start : State) (past : List Input) :
    (stateAfter cfg start past).manager.pubkeyIndex = start.manager.pubkeyIndex := by
  induction past using List.reverseRecOn with
  | nil => rfl
  | append_singleton past input ih => rw [stateAfter_concat, step_pubkeyIndex, ih]

/-- The phase stays as it is. -/
theorem Covered.idle {idx : Nat} {pubkey : Pubkey} (covers : Covered cfg start past idx pubkey)
    {input : Input}
    (same : (stateAfter cfg start (past ++ [input])).phase = (stateAfter cfg start past).phase) :
    Covered cfg start (past ++ [input]) idx pubkey where
  listed := by
    rw [same]
    exact covers.listed
  batch := by
    intro still
    have before := covers.batch (same ▸ still)
    rw [same]
    exact before.imp_right fun vain => vain.concat still

/-- The poller goes on in its batch, or to it. -/
theorem Covered.goOn {idx : Nat} {pubkey : Pubkey} {input : Input} {phase : Phase}
    (next : (stateAfter cfg start (past ++ [input])).phase = phase) (batch : phase.inBatch = true)
    (covers : pubkey ∈ phase.keysLeft ∨
      AskedFor cfg start (past ++ [input]) pubkey none) :
    Covered cfg start (past ++ [input]) idx pubkey where
  listed := by
    intro position stalePubkeys listing
    rw [← next, listing] at batch
    cases batch
  batch := fun _ => next ▸ covers

/-- The poller is not yet in the list, or has left its batch. -/
theorem Covered.off {idx : Nat} {pubkey : Pubkey} {input : Input} {phase : Phase}
    (next : (stateAfter cfg start (past ++ [input])).phase = phase)
    (unlisted : ∀ position stalePubkeys, phase ≠ .listing position stalePubkeys)
    (idle : phase.inBatch = false) : Covered cfg start (past ++ [input]) idx pubkey where
  listed := fun position stalePubkeys listing =>
    (unlisted position stalePubkeys (next.symm.trans listing)).elim
  batch := by
    intro batch
    rw [next, idle] at batch
    cases batch

theorem covered (asleep : start.phase = .sleeping) {idx : Nat} {entry : NonceEntry}
    (leads : start.manager.pubkeyIndex.get entry.pubkey = some idx)
    (present : (stateAfter cfg start past).manager.entries[idx]? = some entry)
    (stale : entry.state.isStale = true) : Covered cfg start past idx entry.pubkey := by
  induction past using List.reverseRecOn with
  | nil =>
    have phase : (stateAfter cfg start []).phase = .sleeping := asleep
    exact ⟨by simp [phase], by simp [phase, Phase.inBatch]⟩
  | append_singleton past input ih =>
    have before : (stateAfter cfg start past).phase.isSweeping = false →
        (stateAfter cfg start past).manager.entries[idx]? = some entry := fun awake =>
      stale_before awake (stateAfter_concat cfg start past input ▸ present) stale
    have does := does_step cfg (stateAfter cfg start past) input
    have next := stateAfter_concat cfg start past input
    generalize step cfg (stateAfter cfg start past) input = result at does next
    have phased := congrArg State.phase next
    rw [next] at present
    cases does with
    | nothing _ _ | onChain _ _ => exact (ih present).idle phased
    | elsewhere operation => exact (ih (stale_of_foreign operation present stale)).idle phased
    | wake _ _ | sweep _ _ _ _ _ _ _ _ | noneStale _ _ _ _ | finish _ _ _ | fail _ _ _ _ =>
      exact .off phased (by simp) rfl
    | swept _ now position newStale events phase absent quiet =>
      exact ⟨by simp [phased], by simp [phased, Phase.inBatch]⟩
    | look _ position stalePubkeys other phase found =>
      refine ⟨fun position' stalePubkeys' listing inside => ?_, by simp [phased, Phase.inBatch]⟩
      obtain ⟨rfl, rfl⟩ := Phase.listing.inj (phased.symm.trans listing)
      rcases Nat.lt_succ_iff_lt_or_eq.mp inside with earlier | rfl
      · have old := (ih present).listed position stalePubkeys phase earlier
        split
        · exact List.mem_append_left _ old
        · exact old
      · obtain rfl := Option.some.inj (present.symm.trans found)
        rw [if_pos stale]
        exact List.mem_append_right _ (List.mem_singleton_self _)
    | listed _ position stalePubkeys phase absent =>
      refine .goOn phased rfl (.inl ?_)
      have inside : idx < position :=
        Nat.lt_of_lt_of_le (List.getElem?_eq_some_iff.mp present).1
          (List.getElem?_eq_none_iff.mp absent)
      have old := (ih present).listed position stalePubkeys phase inside
      rwa [Phase.keysLeft, flatten_chunks (by decide)]
    | ask answer chunk left refreshed phase =>
      refine .goOn phased rfl ?_
      have still : (stateAfter cfg start (past ++ [.proceed answer])).phase.inBatch = true := by
        rw [phased]
        rfl
      have old := (ih present).batch (by rw [phase]; rfl)
      rw [phase] at old
      rcases old with member | vain
      · rw [Phase.keysLeft]
        rcases List.mem_append.mp member with called | later
        · obtain ⟨place, own⟩ := List.mem_iff_getElem?.mp called
          -- a short answer leaves out the last keys of the chunk
          cases given : answer[place]? with
          | some account =>
            have both : (chunk.zip answer)[place]? = some (entry.pubkey, account) :=
              List.getElem?_zip_eq_some.mpr ⟨own, given⟩
            exact .inl (List.mem_append_left _
              (List.mem_map.mpr ⟨_, List.mem_of_getElem? both, rfl⟩))
          | none =>
            have asked := AskedFor.last phase still own
            rw [valueAt, given] at asked
            exact .inr asked
        · exact .inl (List.mem_append_right _ later)
      · exact .inr (vain.concat still)
    | refresh _ pubkey account blockhash answers left refreshed phase found =>
      refine .goOn phased rfl ?_
      have old := (ih (before (by rw [phase]; rfl))).batch (by rw [phase]; rfl)
      rw [phase] at old
      refine old.imp (fun member => ?_) fun vain => vain.concat (by rw [phased]; rfl)
      refine (List.mem_cons.mp member).resolve_left fun (own : entry.pubkey = pubkey) => ?_
      -- the nonce would be ready
      have ready := present
      change (NonceManager.onFallbackRefresh _ pubkey blockhash).entries[idx]? = some entry at ready
      rw [NonceManager.onFallbackRefresh, NonceManager.setStateAt_getElem?,
        before (by rw [phase]; rfl), stateAfter_pubkeyIndex, ← own, leads, Option.map_some,
        if_pos rfl, NonceState.fallbackRefresh_eq, if_pos stale] at ready
      rw [← Option.some.inj ready] at stale
      cases stale
    | skip answer pubkey account answers left refreshed phase unreadable =>
      refine .goOn phased rfl ?_
      have still : (stateAfter cfg start (past ++ [.proceed answer])).phase.inBatch = true := by
        rw [phased]
        rfl
      have old := (ih present).batch (by rw [phase]; rfl)
      rw [phase] at old
      rcases old with member | vain
      · rcases List.mem_cons.mp member with own | later
        · have asked := answers_asked asleep phase _ (List.mem_cons_self ..)
          rw [unreadable, ← own] at asked
          exact .inr (asked.concat still)
        · exact .inl later
      · exact .inr (vain.concat still)
    | answered _ left refreshed phase =>
      refine .goOn phased rfl ?_
      have old := (ih present).batch (by rw [phase]; rfl)
      rw [phase] at old
      exact old.imp_right fun vain => vain.concat (by rw [phased]; rfl)

/-- **A round that ends without an error leaves a nonce stale only if the node was asked
about it in this round and answered nothing that could be read.** -/
theorem round_leaves (cfg : Config) (start : State) (asleep : start.phase = .sleeping)
    (past : List Input) (answer : Accounts)
    (awake : (stateAfter cfg start past).phase ≠ .sleeping)
    (ended : (stateAfter cfg start (past ++ [.proceed answer])).phase = .sleeping) (idx : Nat)
    (entry : NonceEntry)
    (present : (stateAfter cfg start past).manager.entries[idx]? = some entry)
    (leads : start.manager.pubkeyIndex.get entry.pubkey = some idx)
    (stale : entry.state.isStale = true) :
    ∃ asked given, asked ++ [.proceed given] <+: past ∧
      Answered cfg start asked given entry.pubkey none ∧ InBatch cfg start asked past ∧
      (AnswersCurrent cfg start past →
        readable ((stateAfter cfg start asked).chain entry.pubkey) = none) := by
  have covers := covered asleep leads present stale
  have vain : AskedFor cfg start past entry.pubkey none := by
    have does := does_step cfg (stateAfter cfg start past) (.proceed answer)
    rw [stateAfter_concat] at ended
    generalize step cfg (stateAfter cfg start past) (.proceed answer) = result at does ended
    cases does with
    | nothing _ idle => exact idle.elim (fun asleep => (awake asleep).elim) nofun
    | noneStale _ position phase absent =>
      have inside : idx < position :=
        Nat.lt_of_lt_of_le (List.getElem?_eq_some_iff.mp present).1
          (List.getElem?_eq_none_iff.mp absent)
      cases covers.listed position [] phase inside
    | finish _ refreshed phase =>
      have left := covers.batch (by rw [phase]; rfl)
      rw [phase] at left
      exact left.resolve_left (by simp [Phase.keysLeft])
    | sweep _ _ _ _ _ _ _ _ | swept _ _ _ _ _ _ _ _ | look _ _ _ _ _ _ | listed _ _ _ _ _
    | ask _ _ _ _ _ | refresh _ _ _ _ _ _ _ _ _ | skip _ _ _ _ _ _ _ _ | answered _ _ _ _ =>
      cases ended
  obtain ⟨asked, given, earlier, answered, period⟩ := vain
  exact ⟨asked, given, earlier, answered, period,
    fun current => answered.onChain current earlier⟩

/-- The second account is closed, and its nonce stays stale. -/
theorem round_leaves_sample :
    ∃ asked given, asked ++ [.proceed given] <+: sampleInputs ++ List.replicate 3 (.proceed []) ∧
      Answered sampleConfig sampleStart asked given (Samples.hash 4) none ∧
      InBatch sampleConfig sampleStart asked (sampleInputs ++ List.replicate 3 (.proceed [])) ∧
      readable ((stateAfter sampleConfig sampleStart asked).chain (Samples.hash 4)) = none := by
  obtain ⟨asked, given, earlier, answered, period, onChain⟩ :=
    round_leaves sampleConfig sampleStart rfl (sampleInputs ++ List.replicate 3 (.proceed [])) []
      (fun asleep => absurd (congrArg Phase.isSleeping asleep) (by decide +kernel)) rfl 1
      ⟨8, Samples.hash 4, .stale (Samples.hash 5) 100⟩ (by decide +kernel) (by decide +kernel) rfl
  refine ⟨asked, given, earlier, answered, period, onChain ?_⟩
  unfold AnswersCurrent
  decide +kernel

end Rounds

/-! ## Every round ends -/

/-- How many steps the poller takes at most until it sleeps, with so many entries. -/
def Phase.stepsLeft (total : Nat) : Phase → Nat
  | .sleeping => 0
  | .sweeping _ position _ => (total - position) + 4 * total + 3
  | .listing position stalePubkeys => 4 * (total - position) + 3 * stalePubkeys.length + 2
  | .asking left _ => left.flatten.length + 2 * left.length + 1
  | .refreshing answers left _ => answers.length + left.flatten.length + 2 * left.length + 2

theorem step_length (cfg : Config) (state : State) (input : Input) :
    (step cfg state input).1.manager.entries.length = state.manager.entries.length := by
  have does := does_step cfg state input
  generalize step cfg state input = result at does
  cases does with
  | elsewhere operation => exact NonceManager.apply_length operation.1
  | refresh _ pubkey account blockhash answers left refreshed phase found =>
    exact NonceManager.apply_length (.onFallbackRefresh pubkey blockhash)
  | sweep _ now position newStale newStale' entry phase found =>
    change (sweepEntry cfg now _ position).entries.length = _
    simp [sweepEntry, NonceManager.setState]
  | nothing _ _ | wake _ _ | swept _ _ _ _ _ _ _ _ | look _ _ _ _ _ _
  | noneStale _ _ _ _ | listed _ _ _ _ _ | ask _ _ _ _ _ | skip _ _ _ _ _ _ _ _
  | answered _ _ _ _ | finish _ _ _ | fail _ _ _ _ | onChain _ _ => rfl

/-- A step of the poller brings the end of its round nearer, and nothing puts it off. -/
theorem step_stepsLeft (cfg : Config) (state : State) (input : Input)
    (awake : state.phase ≠ .sleeping) :
    (step cfg state input).1.phase.stepsLeft state.manager.entries.length +
        (if input.isProceed then 1 else 0) ≤
      state.phase.stepsLeft state.manager.entries.length := by
  have does := does_step cfg state input
  generalize step cfg state input = result at does
  cases does with
  | nothing _ idle =>
    rcases idle with asleep | other
    · exact (awake asleep).elim
    · rw [other]
      exact Nat.le_refl _
  | wake now asleep => exact (awake asleep).elim
  | elsewhere _ | onChain _ _ => exact Nat.le_refl _
  | sweep answer now position newStale newStale' entry phase found =>
    have inside := (List.getElem?_eq_some_iff.mp found).1
    simp only [phase, Phase.stepsLeft, Input.isProceed, if_true]
    omega
  | swept answer now position newStale events phase absent quiet =>
    simp only [phase, Phase.stepsLeft, Input.isProceed, if_true, List.length_nil]
    omega
  | look answer position stalePubkeys entry phase found =>
    have inside := (List.getElem?_eq_some_iff.mp found).1
    simp only [phase, Phase.stepsLeft, Input.isProceed, if_true]
    split
    · rw [List.length_append, List.length_singleton]
      omega
    · omega
  | noneStale answer position phase absent =>
    simp only [phase, Phase.stepsLeft, Input.isProceed, if_true]
    omega
  | listed answer position stalePubkeys phase absent =>
    have few := @length_chunks_le _ Bootstrap.chunkSize (by decide) stalePubkeys
    simp only [phase, Phase.stepsLeft, Input.isProceed, if_true,
      flatten_chunks (show 0 < Bootstrap.chunkSize by decide)]
    omega
  | ask answer chunk left refreshed phase =>
    have short := Nat.min_le_left chunk.length answer.length
    simp only [phase, Phase.stepsLeft, Input.isProceed, if_true, List.length_zip,
      List.flatten_cons, List.length_append, List.length_cons]
    omega
  | refresh answer pubkey account blockhash answers left refreshed phase found =>
    simp only [phase, Phase.stepsLeft, Input.isProceed, if_true, List.length_cons]
    omega
  | skip answer pubkey account answers left refreshed phase unreadable =>
    simp only [phase, Phase.stepsLeft, Input.isProceed, if_true, List.length_cons]
    omega
  | answered answer left refreshed phase =>
    simp only [phase, Phase.stepsLeft, Input.isProceed, if_true, List.length_nil]
    omega
  | finish answer refreshed phase =>
    simp only [phase, Phase.stepsLeft, Input.isProceed, if_true, List.flatten_nil,
      List.length_nil]
    omega
  | fail chunk left refreshed phase =>
    simp only [phase, Phase.stepsLeft]
    exact Nat.zero_le _

theorem sleeps_within (cfg : Config) (inputs : List Input) {state : State}
    (enough : state.phase.stepsLeft state.manager.entries.length ≤
      inputs.countP Input.isProceed) :
    ∃ moment, moment <+: inputs ∧ (stateAfter cfg state moment).phase = .sleeping := by
  induction inputs generalizing state with
  | nil =>
    refine ⟨[], List.prefix_refl _, ?_⟩
    cases phase : state.phase with
    | sleeping => exact phase
    | sweeping _ _ _ | listing _ _ | asking _ _ | refreshing _ _ _ =>
      simp only [phase, Phase.stepsLeft, List.countP_nil] at enough
      omega
  | cons input rest ih =>
    by_cases asleep : state.phase = .sleeping
    · exact ⟨[], List.nil_prefix, asleep⟩
    · have nearer := step_stepsLeft cfg state input asleep
      rw [List.countP_cons] at enough
      obtain ⟨moment, earlier, sleeps⟩ := @ih (step cfg state input).1 (by
        rw [step_length]
        omega)
      exact ⟨input :: moment, List.cons_prefix_cons.mpr ⟨rfl, earlier⟩, sleeps⟩

/-- **Every round ends**, whatever happens between the steps of the poller: after at most
five steps for each nonce, and three more. -/
theorem round_ends (cfg : Config) (state : State) (asleep : state.phase = .sleeping)
    (now : Instant) (rest : List Input)
    (enough : 5 * state.manager.entries.length + 3 ≤ rest.countP Input.isProceed) :
    ∃ moment, moment <+: rest ∧
      (stateAfter cfg state (.wake now :: moment)).phase = .sleeping := by
  have woken : (step cfg state (.wake now)).1 = { state with phase := .sweeping now 0 0 } := by
    simp [step, asleep, Phase.isSleeping]
  have sleeps := @sleeps_within cfg rest (step cfg state (.wake now)).1 (by
    rw [woken]
    simp only [Phase.stepsLeft]
    omega)
  exact sleeps

theorem round_ends_sample :
    ∃ moment, moment <+: List.replicate 13 (.proceed []) ∧
      (stateAfter sampleConfig sampleStart (.wake 100 :: moment)).phase = .sleeping :=
  round_ends sampleConfig sampleStart rfl 100 (List.replicate 13 (.proceed [])) (by decide)

end SenderAnalysis.RpcPoller

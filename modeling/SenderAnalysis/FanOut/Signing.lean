import Mathlib.Data.Nat.Bitwise
import SenderAnalysis.FanOut.Preparer
import SenderAnalysis.FanOut.Samples
import SenderAnalysis.FanOut.TxBuilder
import SenderAnalysis.Foundations.Rotations

/-!
# What is signed for a trigger

For every trigger the preparer goes through the enabled senders and builds a transaction
for each: the nonce is advanced first, if there is one, a memo names the sender and the
trigger, a tip may go to one of the accounts of the sender's kind, and one transfer goes
back to the payer. A Jito sender gets its tip from a handle that is updated meanwhile; it
is passed over when it has no handle or no tip account. The transactions are then shuffled
with a seed of their own for every trigger.

The tip accounts of a sender are used in rotation. The rotation goes on when the sender is
passed over.

Which accounts a kind of sender has, how messages are signed and how a seed shuffles is
left open.
-/

set_option autoImplicit false

namespace SenderAnalysis

inductive SenderKind where
  | helius
  | jito
  | triton
  | tritonSendTx
  | nozomi
  | astralane
  | astralaneQuic
  | nextblock
  | nextblockQuic
  | bloxroute
  | bloxrouteQuic
  | syncro
  | zeroSlot
  | allenHark
  | blockRazor
deriving DecidableEq, Repr

namespace TxBuilder

structure TxConfig where
  selfTransferLamports : Nat
  priorityFeeMicrolamports : Nat
  computeUnitLimit : Nat
deriving DecidableEq, Repr

/-- The instructions that transactions are made of. -/
inductive Instruction where
  | advanceNonceAccount (noncePubkey authority : Pubkey)
  | setComputeUnitLimit (units : Nat)
  | setComputeUnitPrice (microlamports : Nat)
  | memo (signer : Pubkey) (data : String)
  | transfer (source target : Pubkey) (lamports : Nat)
deriving DecidableEq, Repr

structure NonceParams where
  noncePubkey : Pubkey
  authority : Pubkey
deriving DecidableEq, Repr

structure BuildParams where
  payer : Pubkey
  blockhash : Hash
  senderId : UInt8
  triggerId : TriggerId
  tipAccount : Option Pubkey
  tipLamports : Nat
  nonce : Option NonceParams
  txCfg : TxConfig
  fundTipper : Option (Pubkey × Nat)
deriving DecidableEq, Repr

structure Message where
  instructions : List Instruction
  payer : Pubkey
  recentBlockhash : Hash
deriving DecidableEq, Repr

/-- The message of a transaction. -/
def build (params : BuildParams) : Message where
  instructions :=
    (params.nonce.toList.map fun np => .advanceNonceAccount np.noncePubkey np.authority) ++
    [.setComputeUnitLimit params.txCfg.computeUnitLimit] ++
    (if params.txCfg.priorityFeeMicrolamports > 0 then
      [.setComputeUnitPrice params.txCfg.priorityFeeMicrolamports] else []) ++
    [.memo params.payer (memoPayload params.senderId params.triggerId.value)] ++
    (params.tipAccount.toList.flatMap fun tip =>
      if params.tipLamports > 0 then [.transfer params.payer tip params.tipLamports] else []) ++
    [.transfer params.payer params.payer params.txCfg.selfTransferLamports] ++
    (params.fundTipper.toList.map fun fund => .transfer params.payer fund.1 fund.2)
  payer := params.payer
  recentBlockhash := params.blockhash

end TxBuilder

/-! ## Tip accounts -/

structure TipAccountRotator where
  accounts : List Pubkey
  cursor : UInt64 := 0
deriving DecidableEq, Repr

/-- The next account in rotation. -/
def TipAccountRotator.next (rotator : TipAccountRotator) :
    TipAccountRotator × Option Pubkey :=
  if rotator.accounts.isEmpty then (rotator, none)
  else
    ({ rotator with cursor := rotator.cursor + 1 },
      rotator.accounts[rotator.cursor.toNat % rotator.accounts.length]?)

namespace Preparer

open TxBuilder (BuildParams NonceParams TxConfig)

/-- The part of a sender's configuration that signing depends on. -/
structure SenderConfig where
  id : UInt8
  kind : SenderKind
  tipLamports : Nat
  enabled : Bool
deriving DecidableEq, Repr

/-- An enabled sender and the rotation of its tip accounts. -/
structure SenderSlot where
  config : SenderConfig
  tipRotator : TipAccountRotator
deriving DecidableEq, Repr

/-- The slots of the enabled senders. -/
def senderSlots (tipAccountsFor : SenderKind → List Pubkey) (senders : List SenderConfig) :
    List SenderSlot :=
  (senders.filter SenderConfig.enabled).map fun sender =>
    { config := sender, tipRotator := { accounts := tipAccountsFor sender.kind } }

/-- What the transactions of one trigger are made with. The handles are read as each
sender's turn comes. -/
structure Context where
  signing : Signing
  payer : Pubkey
  nonce : Option NonceParams
  txCfg : TxConfig
  jitoTipHandles : UInt8 → Option Nat

structure BundleMeta where
  tipAccount : Pubkey
  tipLamports : Nat
deriving DecidableEq, Repr

/-- A sender's transaction, with what it was built from. -/
structure Variant where
  params : BuildParams
  presigned : PreSignedTx
  bundleMetadata : Option BundleMeta

/-- The tip of a sender, in lamports and with its account, unless the sender is passed
over. -/
def SenderSlot.tip (slot : SenderSlot) (jitoTipHandles : UInt8 → Option Nat) :
    SenderSlot × Option (Nat × Option Pubkey) :=
  let drawn :=
    if slot.config.tipLamports > 0 ∨ slot.config.kind = .jito then slot.tipRotator.next
    else (slot.tipRotator, none)
  ({ slot with tipRotator := drawn.1 },
    if slot.config.kind = .jito then
      match jitoTipHandles slot.config.id, drawn.2 with
      | some lamports, some account => some (lamports, some account)
      | _, _ => none
    else some (slot.config.tipLamports, drawn.2))

/-- Build and sign the transaction of one sender. -/
def SenderSlot.sign (sign : TxBuilder.Message → Signature) (slot : SenderSlot)
    (context : Context) : SenderSlot × Option Variant :=
  let tip := slot.tip context.jitoTipHandles
  (tip.1,
    tip.2.map fun (lamports, account) =>
      let params : BuildParams := {
        payer := context.payer
        blockhash := context.signing.blockhash
        senderId := slot.config.id
        triggerId := .fromSlotTick context.signing.entry.slot context.signing.entry.tick
        tipAccount := account
        tipLamports := lamports
        nonce := context.nonce
        txCfg := context.txCfg
        fundTipper := none }
      { params
        presigned := context.signing.variant (slot.config.id, sign (TxBuilder.build params))
        bundleMetadata :=
          if slot.config.kind = .jito then account.map fun account => ⟨account, lamports⟩
          else none })

/-- Go through the senders. A sender that is passed over is counted as a signing error. -/
def prepare (sign : TxBuilder.Message → Signature) (slots : List SenderSlot)
    (context : Context) : List SenderSlot × List (Option Variant) :=
  (slots.map fun slot => (slot.sign sign context).1,
    slots.map fun slot => (slot.sign sign context).2)

/-- The transactions of a trigger, before they are shuffled. -/
def variants (sign : TxBuilder.Message → Signature) (slots : List SenderSlot)
    (context : Context) : List Variant :=
  (prepare sign slots context).2.filterMap id

/-- The seed a trigger's transactions are shuffled with. -/
def permSeed (shuffleSeed slot tick : Nat) : Nat :=
  (shuffleSeed * 0x9E3779B97F4A7C15) % 2 ^ 64 ^^^ (slot <<< 8) % 2 ^ 64 ^^^ tick

end Preparer

/-! ## Messages -/

namespace TxBuilder

variable (params : BuildParams)

end TxBuilder

namespace Preparer

open TxBuilder (build)

/-! ## The transactions of one trigger -/

section Variants

variable (sign : TxBuilder.Message → Signature) (context : Context)

/-- The sender gets a transaction: it is not a Jito sender, or it has a handle and a tip
account. -/
def Ready (slot : SenderSlot) : Prop :=
  slot.config.kind = .jito →
    (context.jitoTipHandles slot.config.id).isSome ∧ slot.tipRotator.accounts ≠ []

instance : DecidablePred (Ready context) := fun _ =>
  inferInstanceAs (Decidable (_ → _ ∧ _))

theorem next_isSome (rotator : TipAccountRotator) :
    rotator.next.2.isSome ↔ rotator.accounts ≠ [] := by
  unfold TipAccountRotator.next
  split
  · next empty => simpa using empty
  · next nonempty =>
    have some' : rotator.accounts ≠ [] := by simpa using nonempty
    have inside : rotator.cursor.toNat % rotator.accounts.length < rotator.accounts.length :=
      Nat.mod_lt _ (List.length_pos_iff.mpr some')
    simp [List.getElem?_eq_getElem inside, some']

theorem tip_isSome (slot : SenderSlot) :
    (slot.tip context.jitoTipHandles).2.isSome ↔ Ready context slot := by
  unfold SenderSlot.tip Ready
  dsimp only
  by_cases jito : slot.config.kind = .jito
  · rw [if_pos (Or.inr jito), if_pos jito]
    have draws := next_isSome slot.tipRotator
    cases handle : context.jitoTipHandles slot.config.id <;>
      cases drawn : slot.tipRotator.next.2 <;> simp_all
  · simp [jito]

theorem sign_isSome (slot : SenderSlot) :
    (slot.sign sign context).2.isSome ↔ Ready context slot := by
  rw [← tip_isSome]
  simp [SenderSlot.sign]

/-- A Helius sender, a Jito sender without a handle and one with a handle. -/
def sampleSenders : List SenderConfig :=
  [⟨0, .helius, 1000, true⟩, ⟨1, .jito, 0, true⟩, ⟨2, .jito, 0, true⟩]

/-- Two tip accounts for every kind. -/
def sampleTips : SenderKind → List Pubkey := fun _ => [Samples.hash 1, Samples.hash 2]

def sampleContext : Context where
  signing := ⟨⟨100, 7⟩, Samples.hash 9, none, 1⟩
  payer := Samples.hash 8
  nonce := none
  txCfg := ⟨1, 5000, 200000⟩
  jitoTipHandles := fun id => if id = 2 then some 7000 else none

end Variants

/-! ## Seeds -/

/-- The slot and the tick do not overlap, so the seed is one text with the trigger's id. -/
theorem permSeed_eq (shuffleSeed slot : Nat) {tick : Nat} (byte : tick ≤ 255) :
    permSeed shuffleSeed slot tick =
      (shuffleSeed * 0x9E3779B97F4A7C15) % 2 ^ 64 ^^^ (TriggerId.fromSlotTick slot tick).value := by
  have apart : (slot <<< 8) % 2 ^ 64 ^^^ tick = (slot <<< 8) % 2 ^ 64 ||| tick := by
    refine Nat.eq_of_testBit_eq fun place => ?_
    rw [Nat.testBit_xor, Nat.testBit_or]
    by_cases low : place < 8
    · have zero : ((slot <<< 8) % 2 ^ 64).testBit place = false := by
        rw [Nat.testBit_mod_two_pow, Nat.testBit_shiftLeft]
        simp [Nat.not_le.mpr low]
      rw [zero, Bool.false_xor, Bool.false_or]
    · have zero : tick.testBit place = false := by
        refine Nat.testBit_lt_two_pow (Nat.lt_of_le_of_lt byte ?_)
        exact Nat.lt_of_lt_of_le (by decide) (Nat.pow_le_pow_right (by decide)
          (Nat.le_of_not_lt low))
      rw [zero, Bool.xor_false, Bool.or_false]
  rw [permSeed, Nat.xor_assoc, apart]
  rfl

/-- **No two triggers are shuffled with the same seed.** -/
theorem permSeed_injective {shuffleSeed : Nat} {first second : SlotTick}
    (same : permSeed shuffleSeed first.slot first.tick =
      permSeed shuffleSeed second.slot second.tick) : first = second := by
  rw [permSeed_eq _ _ first.byte, permSeed_eq _ _ second.byte] at same
  have equal := Nat.xor_right_injective same
  refine SlotTick.triggerId_injective ?_
  have ids : ∀ one other : TriggerId, one.value = other.value → one = other := by
    rintro ⟨one⟩ ⟨other⟩ values
    exact congrArg TriggerId.mk values
  exact ids _ _ equal

/-! ## A run of triggers -/

section Rotation

variable (sign : TxBuilder.Message → Signature)

/-- Go through the senders for one trigger after the other. -/
def prepareAll (slots : List SenderSlot) (contexts : List Context) :
    List SenderSlot × List (List (Option Variant)) :=
  runAll (fun slots context =>
    ((prepare sign slots context).1, [(prepare sign slots context).2])) slots contexts

/-- The tip accounts in the transactions of the sender at a place, one for every trigger
for which it is not passed over. -/
def tipsAt (place : Nat) (rows : List (List (Option Variant))) : List Pubkey :=
  rows.filterMap fun row => row[place]?.join.bind fun variant => variant.params.tipAccount

/-- The sender tips: it has a tip configured or is a Jito sender, and has tip accounts. -/
structure SenderSlot.Tips (slot : SenderSlot) : Prop where
  configured : slot.config.tipLamports > 0 ∨ slot.config.kind = .jito
  accounts : slot.tipRotator.accounts ≠ []

/-- A slot after a number of turns of its rotation. -/
def SenderSlot.turned (slot : SenderSlot) (turns : Nat) : SenderSlot :=
  { slot with tipRotator := { slot.tipRotator with cursor := .ofNat turns } }

/-- One turn of the rotation, and the tip account of the transaction, if there is one. -/
theorem sign_turned {slot : SenderSlot} (tips : slot.Tips) {turns : Nat} (few : turns < 2 ^ 64)
    (context : Context) :
    ((slot.turned turns).sign sign context).1 = slot.turned (turns + 1) ∧
      ∀ variant, ((slot.turned turns).sign sign context).2 = some variant →
        variant.params.tipAccount = Rotations.turn slot.tipRotator.accounts turns := by
  have cursor : (UInt64.ofNat turns).toNat = turns := by
    rw [UInt64.toNat_ofNat']
    omega
  have drawn : (slot.turned turns).tipRotator.next =
      ((slot.turned (turns + 1)).tipRotator, Rotations.turn slot.tipRotator.accounts turns) := by
    have nonempty : slot.tipRotator.accounts.isEmpty = false := by
      simpa using tips.accounts
    simp only [TipAccountRotator.next, SenderSlot.turned, nonempty, Rotations.turn, cursor]
    rw [if_neg (by simp), UInt64.ofNat_add]
    rfl
  have configured : (slot.turned turns).config.tipLamports > 0 ∨
      (slot.turned turns).config.kind = .jito := tips.configured
  constructor
  · simp only [SenderSlot.sign, SenderSlot.tip, if_pos configured, drawn]
    rfl
  · intro variant signed
    obtain ⟨⟨lamports, account⟩, tip, rfl⟩ := Option.map_eq_some_iff.mp signed
    dsimp only
    simp only [SenderSlot.tip, if_pos configured, drawn] at tip
    split at tip
    · split at tip
      · next found =>
        cases tip
        exact found.symm
      · cases tip
    · cases tip
      rfl

/-- The rotation of a sender's tip accounts over a run of triggers. -/
theorem prepareAll_rotates {slots : List SenderSlot} {place : Nat} {slot : SenderSlot}
    (here : slots[place]? = some (slot.turned 0)) (tips : slot.Tips) (contexts : List Context)
    (few : contexts.length ≤ 2 ^ 64) (ready : ∀ context ∈ contexts, Ready context slot) :
    (prepareAll sign slots contexts).1[place]? = some (slot.turned contexts.length) ∧
      tipsAt place (prepareAll sign slots contexts).2 =
        Rotations.taken slot.tipRotator.accounts contexts.length := by
  induction contexts using List.reverseRecOn with
  | nil => exact ⟨here, rfl⟩
  | append_singleton past context ih =>
    rw [List.length_append, List.length_singleton] at few ⊢
    obtain ⟨turned, taken⟩ := ih (by omega) fun other member =>
      ready other (List.mem_append_left _ member)
    obtain ⟨next, draws⟩ := sign_turned sign tips (show past.length < 2 ^ 64 by omega) context
    rw [prepareAll, runAll_concat]
    change (prepare sign (prepareAll sign slots past).1 context).1[place]? = _ ∧
      tipsAt place ((prepareAll sign slots past).2 ++
        [(prepare sign (prepareAll sign slots past).1 context).2]) = _
    constructor
    · rw [prepare, List.getElem?_map, turned, Option.map_some, next]
    · have own : Ready context (slot.turned past.length) := ready context (by simp)
      obtain ⟨variant, signed⟩ :=
        Option.isSome_iff_exists.mp ((sign_isSome sign context (slot.turned past.length)).mpr own)
      have row : (prepare sign (prepareAll sign slots past).1 context).2[place]? =
          some (some variant) := by
        rw [prepare, List.getElem?_map, turned, Option.map_some, signed]
      have last : tipsAt place [(prepare sign (prepareAll sign slots past).1 context).2] =
          (Rotations.turn slot.tipRotator.accounts past.length).toList := by
        rw [← draws variant signed]
        cases account : variant.params.tipAccount <;> simp [tipsAt, row, account]
      have split : tipsAt place ((prepareAll sign slots past).2 ++
          [(prepare sign (prepareAll sign slots past).1 context).2]) =
            tipsAt place (prepareAll sign slots past).2 ++
              tipsAt place [(prepare sign (prepareAll sign slots past).1 context).2] :=
        List.filterMap_append
      rw [split, taken, last, Rotations.taken_succ]

/-- **A sender's tips go round.** In a run of triggers a sender that tips uses the tip
accounts of its kind in rotation, so none of them is ever used twice more than another. -/
theorem tips_rotate (tipAccountsFor : SenderKind → List Pubkey) (senders : List SenderConfig)
    (place : Nat) (slot : SenderSlot)
    (here : (senderSlots tipAccountsFor senders)[place]? = some slot) (tips : slot.Tips)
    (contexts : List Context) (few : contexts.length ≤ 2 ^ 64)
    (ready : ∀ context ∈ contexts, Ready context slot) :
    tipsAt place (prepareAll sign (senderSlots tipAccountsFor senders) contexts).2 =
        Rotations.taken (tipAccountsFor slot.config.kind) contexts.length ∧
      ((tipAccountsFor slot.config.kind).Nodup →
        ∀ first ∈ tipAccountsFor slot.config.kind, ∀ second ∈ tipAccountsFor slot.config.kind,
          (tipsAt place (prepareAll sign (senderSlots tipAccountsFor senders) contexts).2).count
              first ≤
            (tipsAt place (prepareAll sign (senderSlots tipAccountsFor senders) contexts).2).count
              second + 1) := by
  obtain ⟨sender, _, fresh⟩ : ∃ sender ∈ senders.filter SenderConfig.enabled,
      { config := sender, tipRotator := { accounts := tipAccountsFor sender.kind } } = slot :=
    List.mem_map.mp (List.mem_of_getElem? here)
  subst fresh
  have taken := (prepareAll_rotates sign here tips contexts few ready).2
  refine ⟨taken, fun distinct first one second other => ?_⟩
  rw [taken]
  exact Rotations.taken_fair distinct one other _

/-- Three triggers for one sender with two tip accounts. -/
theorem tips_rotate_sample :
    tipsAt 0 (prepareAll (fun _ => Samples.signature 1) (senderSlots sampleTips sampleSenders)
        [sampleContext, sampleContext, sampleContext]).2 =
      [Samples.hash 1, Samples.hash 2, Samples.hash 1] :=
  (tips_rotate (fun _ => Samples.signature 1) sampleTips sampleSenders 0
    ⟨⟨0, .helius, 1000, true⟩, ⟨sampleTips .helius, 0⟩⟩ rfl
    ⟨.inl (by decide), by decide⟩ [sampleContext, sampleContext, sampleContext] (by decide)
    (fun _ _ jito => by cases jito)).1.trans (by decide +kernel)

end Rotation

end Preparer

end SenderAnalysis

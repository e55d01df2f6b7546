import SenderAnalysis.FanOut.TriggerEngine.Model
import SenderAnalysis.Foundations.Numerals

/-!
# The memo of a transaction

Every transaction carries a memo with the sender it goes to and the trigger it was
signed for: two hexadecimal digits, a colon and sixteen hexadecimal digits. The trigger
id packs a slot and a tick. A memo is read back by splitting it at the colon, and the
slot and the tick by unpacking the id, so transactions with the same memo belong to the
same sender, slot and tick (`memoPayload_injective`,
`SlotTick.triggerId_injective`).
-/

set_option autoImplicit false

namespace SenderAnalysis

/-- The memo of a sender's transaction for a trigger. -/
def memoPayload (senderId : UInt8) (triggerId : Nat) : String :=
  String.ofList (zeroPadded 16 2 senderId.toNat) ++ ":" ++
    String.ofList (zeroPadded 16 16 triggerId)

/-- Split a text at the first separator. -/
def splitOnce (separator : Char) : List Char → Option (List Char × List Char)
  | [] => none
  | char :: rest =>
      if char = separator then some ([], rest)
      else (splitOnce separator rest).map fun parts => (char :: parts.1, parts.2)

/-- Read the sender and the trigger id of a memo. -/
def readMemo (memo : String) : Option (UInt8 × TriggerId) := do
  let (sender, trigger) ← splitOnce ':' memo.toList
  let senderId ← fromStrRadix 16 (2 ^ 8) sender
  let triggerId ← fromStrRadix 16 (2 ^ 64) trigger
  return (.ofNat senderId, ⟨triggerId⟩)

/-- The slot and the tick that are packed in a trigger id. -/
def TriggerId.slotTick (triggerId : TriggerId) : Nat × Nat :=
  (triggerId.value >>> 8, triggerId.value % 2 ^ 8)

/-- A slot and a tick for which a trigger id has room. -/
structure SlotTick where
  slot : Nat
  tick : Nat
  fits : slot < 2 ^ 56
  byte : tick ≤ 255
deriving DecidableEq, Repr

/-- The id of the trigger of a slot and a tick. -/
def SlotTick.triggerId (point : SlotTick) : TriggerId := .fromSlotTick point.slot point.tick

/-! ## Trigger ids -/

namespace TriggerId

/-- The tick does not overlap the slot, whose uppermost bits are lost. -/
theorem value_fromSlotTick (slot : Nat) {tick : Nat} (byte : tick ≤ 255) :
    (fromSlotTick slot tick).value = slot % 2 ^ 56 * 2 ^ 8 + tick := by
  have shifted : (slot <<< 8) % 2 ^ 64 = (slot % 2 ^ 56) <<< 8 := by
    simp only [Nat.shiftLeft_eq]
    omega
  rw [fromSlotTick, shifted, ← Nat.shiftLeft_add_eq_or_of_lt (by omega), Nat.shiftLeft_eq]

theorem value_fromSlotTick_lt (slot : Nat) {tick : Nat} (byte : tick ≤ 255) :
    (fromSlotTick slot tick).value < 2 ^ 64 := by
  rw [value_fromSlotTick slot byte]
  omega

/-- The slot and the tick are unpacked. -/
theorem slotTick_fromSlotTick {slot tick : Nat} (fits : slot < 2 ^ 56) (byte : tick ≤ 255) :
    (fromSlotTick slot tick).slotTick = (slot, tick) := by
  rw [slotTick, value_fromSlotTick slot byte, Nat.shiftRight_eq_div_pow]
  have upper : (slot % 2 ^ 56 * 2 ^ 8 + tick) / 2 ^ 8 = slot := by omega
  have lower : (slot % 2 ^ 56 * 2 ^ 8 + tick) % 2 ^ 8 = tick := by omega
  rw [upper, lower]

end TriggerId

theorem SlotTick.triggerId_lt (point : SlotTick) : point.triggerId.value < 2 ^ 64 :=
  TriggerId.value_fromSlotTick_lt point.slot point.byte

/-- **A trigger id determines its slot and its tick.** -/
theorem SlotTick.triggerId_injective : Function.Injective SlotTick.triggerId := by
  rintro ⟨slot, tick, fits, byte⟩ ⟨slot', tick', fits', byte'⟩ same
  have unpacked := TriggerId.slotTick_fromSlotTick fits byte
  change TriggerId.fromSlotTick slot tick = TriggerId.fromSlotTick slot' tick' at same
  rw [same, TriggerId.slotTick_fromSlotTick fits' byte', Prod.mk.injEq] at unpacked
  obtain ⟨rfl, rfl⟩ := unpacked
  rfl

/-! ## Memos -/

theorem splitOnce_append {separator : Char} (before after : List Char)
    (free : separator ∉ before) :
    splitOnce separator (before ++ separator :: after) = some (before, after) := by
  induction before with
  | nil => simp [splitOnce]
  | cons char before ih =>
    rw [List.mem_cons, not_or] at free
    simp [splitOnce, Ne.symm free.1, ih free.2]

theorem toList_memoPayload (senderId : UInt8) (triggerId : Nat) :
    (memoPayload senderId triggerId).toList =
      zeroPadded 16 2 senderId.toNat ++ ':' :: zeroPadded 16 16 triggerId := by
  simp [memoPayload]

/-- The digits are no separators. -/
theorem colon_notMem_zeroPadded (width number : Nat) : ':' ∉ zeroPadded 16 width number := by
  intro member
  rcases List.mem_append.mp member with zero | digit
  · exact absurd (List.mem_replicate.mp zero).2 (by decide)
  · exact forall_mem_toDigits (· ≠ ':') (by decide) (by decide) number ':' digit rfl

/-- **The sender and the trigger id of a memo are read back.** -/
theorem readMemo_memoPayload (senderId : UInt8) {triggerId : Nat} (word : triggerId < 2 ^ 64) :
    readMemo (memoPayload senderId triggerId) = some (senderId, ⟨triggerId⟩) := by
  have sender : fromStrRadix 16 (2 ^ 8) (zeroPadded 16 2 senderId.toNat) = some senderId.toNat :=
    fromStrRadix_zeroPadded (by decide) (by decide) 2 senderId.toNat_lt
  have trigger : fromStrRadix 16 (2 ^ 64) (zeroPadded 16 16 triggerId) = some triggerId :=
    fromStrRadix_zeroPadded (by decide) (by decide) 16 word
  rw [readMemo, toList_memoPayload, splitOnce_append _ _ (colon_notMem_zeroPadded 2 _)]
  simp only [Option.bind_eq_bind, Option.bind_some, sender, trigger, UInt8.ofNat_toNat,
    Option.pure_def, -Nat.reducePow]

/-- **Transactions with the same memo are for the same sender and trigger.** -/
theorem memoPayload_injective {senderId senderId' : UInt8} {triggerId triggerId' : Nat}
    (word : triggerId < 2 ^ 64) (word' : triggerId' < 2 ^ 64)
    (same : memoPayload senderId triggerId = memoPayload senderId' triggerId') :
    senderId = senderId' ∧ triggerId = triggerId' := by
  have read := readMemo_memoPayload senderId word
  rw [same, readMemo_memoPayload senderId' word'] at read
  simp only [Option.some.injEq, Prod.mk.injEq, TriggerId.mk.injEq] at read
  exact ⟨read.1.symm, read.2.symm⟩

theorem length_memoPayload (senderId : UInt8) {triggerId : Nat} (word : triggerId < 2 ^ 64) :
    (memoPayload senderId triggerId).toList.length = 19 := by
  have byte : senderId.toNat < 16 ^ 2 := senderId.toNat_lt
  have fits : triggerId < 16 ^ 16 := word
  rw [toList_memoPayload, List.length_append, List.length_cons,
    length_zeroPadded (by decide) (by decide) byte, length_zeroPadded (by decide) (by decide) fits]

/-- **The map from a sender, a slot and a tick to the memo is injective.** -/
theorem memo_injective :
    Function.Injective fun attempt : UInt8 × SlotTick =>
      memoPayload attempt.1 attempt.2.triggerId.value := by
  rintro ⟨senderId, point⟩ ⟨senderId', point'⟩ same
  obtain ⟨sender, value⟩ := memoPayload_injective point.triggerId_lt point'.triggerId_lt same
  have trigger : point.triggerId = point'.triggerId := by
    rw [← TriggerId.mk.injEq] at value
    exact value
  rw [Prod.mk.injEq]
  exact ⟨sender, SlotTick.triggerId_injective trigger⟩

/-- Memos are ASCII. -/
theorem memoPayload_ascii (senderId : UInt8) (triggerId : Nat) :
    ∀ char ∈ (memoPayload senderId triggerId).toList, char.val ≤ 127 := by
  intro char member
  rw [toList_memoPayload, List.mem_append, List.mem_cons] at member
  rcases member with sender | rfl | trigger
  · exact zeroPadded_ascii (by decide) 2 _ char sender
  · decide
  · exact zeroPadded_ascii (by decide) 16 _ char trigger

/-- An ASCII character is encoded as one byte. -/
theorem flatMap_utf8EncodeChar {chars : List Char} (ascii : ∀ char ∈ chars, char.val ≤ 127) :
    chars.flatMap String.utf8EncodeChar = chars.map fun char => UInt8.ofNat char.val.toNat := by
  induction chars with
  | nil => rfl
  | cons char rest ih =>
    have low : char.val.toNat ≤ 127 := ascii char List.mem_cons_self
    rw [List.flatMap_cons, ih fun other later => ascii other (List.mem_cons_of_mem char later),
      String.utf8EncodeChar, if_pos low]
    rfl

/-- An ASCII text has one byte for every character. -/
theorem toUTF8_of_ascii {text : String} (ascii : ∀ char ∈ text.toList, char.val ≤ 127) :
    text.toUTF8.data.toList = text.toList.map fun char => UInt8.ofNat char.val.toNat := by
  have bytes : text.toUTF8 = text.toList.utf8Encode := by
    rw [String.toUTF8_eq_toByteArray, ← String.toByteArray_ofList, String.ofList_toList]
  rw [bytes, List.utf8Encode, List.data_toByteArray, flatMap_utf8EncodeChar ascii]

/-- **A memo has 19 bytes, all of them ASCII.** -/
theorem bytes_memoPayload (senderId : UInt8) {triggerId : Nat} (word : triggerId < 2 ^ 64) :
    (memoPayload senderId triggerId).toUTF8.size = 19 ∧
      ∀ byte ∈ (memoPayload senderId triggerId).toUTF8.data, byte ≤ 127 := by
  have ascii := memoPayload_ascii senderId triggerId
  have bytes := toUTF8_of_ascii ascii
  constructor
  · rw [ByteArray.size, ← Array.length_toList, bytes, List.length_map,
      length_memoPayload senderId word]
  · intro byte member
    rw [← Array.mem_toList_iff, bytes, List.mem_map] at member
    obtain ⟨char, here, rfl⟩ := member
    have low : char.val.toNat ≤ 127 := ascii char here
    rw [UInt8.le_iff_toNat_le, UInt8.toNat_ofNat']
    exact (Nat.mod_le _ _).trans low

end SenderAnalysis

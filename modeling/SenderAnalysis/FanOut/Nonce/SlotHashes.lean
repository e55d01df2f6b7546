import SenderAnalysis.FanOut.Nonce.LocalCompute
import SenderAnalysis.Foundations.Traces

/-!
# The slot hash cache is a windowed map of last writes

The purpose of the cache is stated without it: after a list of writes, the slots in
the window of the greatest slot written map to the hash last written for them, and
no other slot is mapped (`windowed`). The cache reaches this map by inserting and
popping from the front. The greatest key of the map is the greatest slot written,
because that slot is in its own window and so is never popped; a slot that was
popped stays outside the window, since the greatest slot only grows.
-/

set_option autoImplicit false

namespace SenderAnalysis.SlotHashCache

open Std OrderedMap

/-! ## The map the cache stands for -/

/-- A call that records a hash for a slot. -/
inductive Call where
  | recordEntry (slot : Nat) (entryHash : Hash)
  | recordSlotComplete (slot : Nat) (lastEntryHash : Hash)
deriving DecidableEq, Repr

/-- The write a call makes. -/
def Call.write : Call → Nat × Hash
  | recordEntry slot hash | recordSlotComplete slot hash => (slot, hash)

def Call.run (cache : SlotHashCache) : Call → SlotHashCache
  | recordEntry slot hash => cache.recordEntry slot hash
  | recordSlotComplete slot hash => cache.recordSlotComplete slot hash

/-- The cache after a list of calls. -/
def after (window : Nat) (calls : List Call) : SlotHashCache :=
  calls.foldl Call.run (new window)

/-- No slot was written that lies more than the window ahead. -/
def InWindow (window : Nat) (writes : List (Nat × Hash)) (slot : Nat) : Prop :=
  ∀ write ∈ writes, write.1 ≤ slot + window

instance (window : Nat) (writes : List (Nat × Hash)) (slot : Nat) :
    Decidable (InWindow window writes slot) :=
  inferInstanceAs (Decidable (∀ write ∈ writes, write.1 ≤ slot + window))

/-- The last writes of the slots in the window of the greatest slot written. -/
def windowed (window : Nat) (writes : List (Nat × Hash)) (slot : Nat) : Option Hash :=
  if InWindow window writes slot then lastWrite writes slot else none

/-! ## One write -/

/-- A list that is not empty has a greatest key. -/
theorem exists_greatest {writes : List (Nat × Hash)} (nonempty : writes ≠ []) :
    ∃ top ∈ writes, ∀ write ∈ writes, write.1 ≤ top.1 := by
  have greatest := foldl_max_zero_mem (mt (@List.map_eq_nil_iff _ _ Prod.fst writes).mp nonempty)
  obtain ⟨top, member, same⟩ := List.mem_map.mp greatest
  refine ⟨top, member, fun write listed => ?_⟩
  rw [same]
  exact le_foldl_max_of_mem (List.mem_map_of_mem listed) 0

/-- Where the map holds the last writes of the window, its greatest key after another
write is the greatest slot written. -/
theorem greatest_inserted {window : Nat} {writes : List (Nat × Hash)}
    {inner : ExtTreeMap Nat Hash} (holds : ∀ slot, inner[slot]? = windowed window writes slot)
    (slot : Nat) (hash : Hash) :
    ∃ top, lastKey (inner.insert slot hash) = some top ∧
      (∃ write ∈ writes ++ [(slot, hash)], write.1 = top) ∧
      ∀ write ∈ writes ++ [(slot, hash)], write.1 ≤ top := by
  cases found : lastKey (inner.insert slot hash) with
  | none =>
    have absent := congrArg (·[slot]?) (lastKey_eq_none_iff.mp found)
    simp at absent
  | some top =>
    have present : ∀ key, key ∈ inner.insert slot hash → key ≤ top := fun key member =>
      Nat.isLE_compare.mp (isLE_lastKey found member)
    have topIn : top ∈ inner.insert slot hash := by
      rw [lastKey] at found
      exact ExtTreeMap.mem_keys.mp (List.mem_of_getLast? found)
    refine ⟨top, rfl, ?_, ?_⟩
    · rw [ExtTreeMap.mem_insert] at topIn
      rcases topIn with same | old
      · exact ⟨(slot, hash), by simp, Nat.compare_eq_eq.mp same⟩
      · obtain ⟨value, there⟩ := Option.isSome_iff_exists.mp
          (ExtTreeMap.mem_iff_isSome_getElem?.mp old)
        by_contra none
        have unwritten : lastWrite writes top = Option.none :=
          lastWrite_eq_none_iff.mpr fun write member same =>
            none ⟨write, List.mem_append_left _ member, same⟩
        rw [holds, windowed, unwritten] at there
        simp at there
    · have inhabited : writes ++ [(slot, hash)] ≠ [] := by simp
      obtain ⟨greatest, member, above⟩ := exists_greatest inhabited
      intro write listed
      refine Nat.le_trans (above write listed) (present _ ?_)
      rcases List.mem_append.mp member with old | new
      · rw [ExtTreeMap.mem_insert]
        right
        rw [ExtTreeMap.mem_iff_isSome_getElem?, holds, windowed, if_pos, Option.isSome_iff_ne_none]
        · exact fun missing => lastWrite_eq_none_iff.mp missing greatest old rfl
        · intro other earlier
          exact Nat.le_trans (above other (List.mem_append_left _ earlier)) (Nat.le_add_right ..)
      · obtain rfl := List.mem_singleton.mp new
        simp

/-- **A write to a map of the last writes of the window leaves the map of the last
writes with it.** -/
theorem recordEntry_holds {cache : SlotHashCache} {writes : List (Nat × Hash)}
    (holds : ∀ slot, cache.inner[slot]? = windowed cache.window writes slot)
    (slot : Nat) (hash : Hash) (key : Nat) :
    (cache.recordEntry slot hash).inner[key]? =
      windowed cache.window (writes ++ [(slot, hash)]) key := by
  obtain ⟨top, found, ⟨highest, written, rfl⟩, above⟩ := greatest_inserted holds slot hash
  have inserted : InWindow cache.window (writes ++ [(slot, hash)]) key →
      (cache.inner.insert slot hash)[key]? = lastWrite (writes ++ [(slot, hash)]) key := by
    intro inside
    have earlier : InWindow cache.window writes key :=
      fun write member => inside write (List.mem_append_left _ member)
    rw [lastWrite_concat, ExtTreeMap.getElem?_insert, holds, windowed, if_pos earlier]
    exact if_congr Nat.compare_eq_eq rfl rfl
  have window_iff : InWindow cache.window (writes ++ [(slot, hash)]) key ↔
      highest.1 ≤ key + cache.window :=
    ⟨fun inside => inside highest written,
      fun reaches write member => Nat.le_trans (above write member) reaches⟩
  unfold windowed recordEntry
  simp only [found]
  split
  · simp only [getElem?_popBelow]
    by_cases inside : InWindow cache.window (writes ++ [(slot, hash)]) key
    · have reaches := window_iff.mp inside
      rw [if_pos inside, if_neg (by omega), inserted inside]
    · have beyond : ¬ highest.1 ≤ key + cache.window :=
        fun reaches => inside (window_iff.mpr reaches)
      rw [if_neg inside, if_pos (by omega)]
  · have inside := window_iff.mpr (by omega)
    rw [if_pos inside, inserted inside]

theorem recordEntry_window (cache : SlotHashCache) (slot : Nat) (hash : Hash) :
    (cache.recordEntry slot hash).window = cache.window := by
  unfold recordEntry
  dsimp only
  split
  · split <;> rfl
  · rfl

/-! ## Every list of writes -/

theorem after_concat (window : Nat) (past : List Call) (call : Call) :
    after window (past ++ [call]) = (after window past).recordEntry call.write.1 call.write.2 := by
  rw [after, List.foldl_concat]
  cases call <;> rfl

theorem after_window (window : Nat) (calls : List Call) : (after window calls).window = window := by
  induction calls using List.reverseRecOn with
  | nil => rfl
  | append_singleton past call ih => rw [after_concat, recordEntry_window, ih]

/-- **The cache maps the slots in the window of the greatest slot written, each to the
hash last written for it, and no other slot.** -/
theorem after_getElem? (window : Nat) (calls : List Call) (slot : Nat) :
    (after window calls).inner[slot]? = windowed window (calls.map Call.write) slot := by
  induction calls using List.reverseRecOn generalizing slot with
  | nil => simp [after, new, windowed]
  | append_singleton past call ih =>
    have same := after_window window past
    rw [after_concat, recordEntry_holds (by rwa [same]), same, List.map_append]
    rfl

/-! ## Looking back -/

/-- What a search from some slots back finds is the greatest mapped slot from there on. -/
theorem lookBack_eq_some_iff (hashv : Hashv) (cache : SlotHashCache)
    (landedSlot maxLookback back : Nat) (slot : Nat) (hash next : Hash) :
    nextNonceForLandedSlot.lookBack hashv cache landedSlot maxLookback back =
        some (slot, hash, next) ↔
      cache.inner[slot]? = some hash ∧ next = computeNextDurableNonce hashv hash ∧
        slot + back ≤ landedSlot ∧ landedSlot ≤ slot + maxLookback ∧
        ∀ later, slot < later → later + back ≤ landedSlot → cache.inner[later]? = none := by
  fun_induction nextNonceForLandedSlot.lookBack hashv cache landedSlot maxLookback back with
  | case1 back within early => simp; omega
  | case2 back within reaches value present =>
    simp only [Option.some.injEq, Prod.mk.injEq]
    constructor
    · rintro ⟨rfl, rfl, rfl⟩
      exact ⟨present, rfl, by omega, by omega, fun later _ _ => by omega⟩
    · rintro ⟨mapped, rfl, near, far, gone⟩
      have same : landedSlot - back = slot := by
        by_contra differs
        have missing := gone (landedSlot - back) (by omega) (by omega)
        simp [present] at missing
      subst same
      rw [present, Option.some.injEq] at mapped
      subst mapped
      exact ⟨rfl, rfl, rfl⟩
  | case3 back within reaches missing ih =>
    rw [ih]
    refine and_congr_right fun mapped => and_congr_right fun _ => ?_
    have apart : slot ≠ landedSlot - back := by
      rintro rfl
      simp [missing] at mapped
    constructor
    · rintro ⟨near, far, gone⟩
      refine ⟨by omega, far, fun later after closer => ?_⟩
      by_cases here : later = landedSlot - back
      · rw [here, missing]
      · exact gone later after (by omega)
    · rintro ⟨near, far, gone⟩
      exact ⟨by omega, far, fun later after closer => gone later after (by omega)⟩
  | case4 back beyond =>
    simp only [reduceCtorEq, false_iff]
    rintro ⟨_, _, near, far, _⟩
    omega

theorem nextNonce_eq_some_iff (hashv : Hashv) (cache : SlotHashCache)
    (landedSlot maxLookback : Nat) (slot : Nat) (hash next : Hash) :
    nextNonceForLandedSlot hashv cache landedSlot maxLookback = some (slot, hash, next) ↔
      cache.inner[slot]? = some hash ∧ next = computeNextDurableNonce hashv hash ∧
        slot < landedSlot ∧ landedSlot ≤ slot + maxLookback ∧
        ∀ later, slot < later → later < landedSlot → cache.inner[later]? = none :=
  lookBack_eq_some_iff hashv cache landedSlot maxLookback 1 slot hash next

/-- A search finds nothing only when no slot from there on is mapped. -/
theorem lookBack_eq_none_iff (hashv : Hashv) (cache : SlotHashCache)
    (landedSlot maxLookback back : Nat) :
    nextNonceForLandedSlot.lookBack hashv cache landedSlot maxLookback back = none ↔
      ∀ slot, slot + back ≤ landedSlot → landedSlot ≤ slot + maxLookback →
        cache.inner[slot]? = none := by
  fun_induction nextNonceForLandedSlot.lookBack hashv cache landedSlot maxLookback back with
  | case1 back within early =>
    simp only [true_iff]
    intro slot near _
    omega
  | case2 back within reaches value present =>
    simp only [reduceCtorEq, false_iff]
    intro unmapped
    have missing := unmapped (landedSlot - back) (by omega) (by omega)
    simp [present] at missing
  | case3 back within reaches missing ih =>
    rw [ih]
    constructor
    · intro unmapped slot near far
      by_cases here : slot = landedSlot - back
      · rw [here, missing]
      · exact unmapped slot (by omega) far
    · exact fun unmapped slot near far => unmapped slot (by omega) far
  | case4 back beyond =>
    simp only [true_iff]
    intro slot near far
    omega

theorem nextNonce_eq_none_iff (hashv : Hashv) (cache : SlotHashCache)
    (landedSlot maxLookback : Nat) :
    nextNonceForLandedSlot hashv cache landedSlot maxLookback = none ↔
      ∀ slot, slot < landedSlot → landedSlot ≤ slot + maxLookback → cache.inner[slot]? = none :=
  lookBack_eq_none_iff hashv cache landedSlot maxLookback 1

/-- **The cache is a windowed map of last writes, and the search finds the greatest
mapped slot in its range.** After any calls, the slots that were written and have no
written slot more than the window ahead map to the hash last written for them, and
no other slot is mapped. For a landing, the search answers with the greatest mapped
slot before the landing and within the lookback, with its hash and the nonce
computed from it, and with nothing when there is none. -/
theorem slotHashCache_windowed (window : Nat) (calls : List Call) :
    (∀ slot, (after window calls).inner[slot]? =
      if ∀ write ∈ calls.map Call.write, write.1 ≤ slot + window then
        lastWrite (calls.map Call.write) slot
      else none) ∧
    ∀ (hashv : Hashv) (landedSlot maxLookback : Nat),
      (∀ slot hash next,
        nextNonceForLandedSlot hashv (after window calls) landedSlot maxLookback =
            some (slot, hash, next) ↔
          (after window calls).inner[slot]? = some hash ∧
            next = computeNextDurableNonce hashv hash ∧
            slot < landedSlot ∧ landedSlot ≤ slot + maxLookback ∧
            ∀ later, slot < later → later < landedSlot →
              (after window calls).inner[later]? = none) ∧
      (nextNonceForLandedSlot hashv (after window calls) landedSlot maxLookback = none ↔
        ∀ slot, slot < landedSlot → landedSlot ≤ slot + maxLookback →
          (after window calls).inner[slot]? = none) := by
  refine ⟨fun slot => after_getElem? window calls slot, fun hashv landedSlot maxLookback => ?_⟩
  exact ⟨fun slot hash next => nextNonce_eq_some_iff hashv _ landedSlot maxLookback slot hash next,
    nextNonce_eq_none_iff hashv _ landedSlot maxLookback⟩

end SenderAnalysis.SlotHashCache

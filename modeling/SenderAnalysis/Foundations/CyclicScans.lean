import Mathlib.Data.List.Basic

/-!
# Cyclic scans

A cyclic scan looks at the `n` positions of a cycle one after the other, from a
start on and around the end, and stops at the first hit. It looks at every position
once, so it finds nothing only when no position is a hit, and what it finds is the
hit the fewest steps ahead of the start.
-/

set_option autoImplicit false

namespace SenderAnalysis

variable {β : Type*}

/-- The first hit of a scan of the positions of a cycle. -/
def cyclicScan (n start : Nat) (look : Nat → Option β) : Option β :=
  (List.range n).findSome? fun offset => look ((start + offset) % n)

/-- How many steps ahead of the start a position of a cycle is. -/
def stepsTo (n start position : Nat) : Nat :=
  (position + n - start) % n

variable {n start position : Nat}

theorem stepsTo_lt (inside : position < n) : stepsTo n start position < n :=
  Nat.mod_lt _ (by omega)

/-- Going as many steps ahead leads to the position. -/
theorem add_stepsTo (begins : start < n) (inside : position < n) :
    (start + stepsTo n start position) % n = position := by
  rw [stepsTo, Nat.add_mod_mod, Nat.add_sub_cancel' (by omega), Nat.add_mod_right,
    Nat.mod_eq_of_lt inside]

theorem stepsTo_add {offset : Nat} (begins : start < n) (short : offset < n) :
    stepsTo n start ((start + offset) % n) = offset := by
  unfold stepsTo
  by_cases wraps : start + offset < n
  · rw [Nat.mod_eq_of_lt wraps, show start + offset + n - start = offset + n by omega,
      Nat.add_mod_right, Nat.mod_eq_of_lt short]
  · have reduced : (start + offset) % n = start + offset - n := by
      rw [Nat.mod_eq_sub_mod (by omega), Nat.mod_eq_of_lt (by omega)]
    rw [reduced, show start + offset - n + n - start = offset by omega, Nat.mod_eq_of_lt short]

theorem exists_of_findSome?_range {look : Nat → Option β} {hit : β}
    (found : (List.range n).findSome? look = some hit) :
    ∃ offset < n, look offset = some hit ∧ ∀ earlier < offset, look earlier = none := by
  induction n with
  | zero => simp at found
  | succ n ih =>
    rw [List.range_succ, List.findSome?_append] at found
    cases front : (List.range n).findSome? look with
    | some first =>
      rw [front, Option.some_or] at found
      obtain ⟨offset, short, here, before⟩ := ih (front.trans found)
      exact ⟨offset, by omega, here, before⟩
    | none =>
      rw [front, Option.none_or] at found
      refine ⟨n, by omega, by simpa using found, fun earlier short => ?_⟩
      exact List.findSome?_eq_none_iff.mp front earlier (List.mem_range.mpr short)

/-- **A cyclic scan finds nothing only when no position of the cycle is a hit.** -/
theorem cyclicScan_eq_none_iff {look : Nat → Option β} (begins : start < n) :
    cyclicScan n start look = none ↔ ∀ position < n, look position = none := by
  rw [cyclicScan, List.findSome?_eq_none_iff]
  constructor
  · intro misses position inside
    have missed := misses _ (List.mem_range.mpr (@stepsTo_lt n start _ inside))
    rwa [add_stepsTo begins inside] at missed
  · intro misses offset _
    exact misses _ (Nat.mod_lt _ (by omega))

/-- **What a cyclic scan finds is a hit, and every position fewer steps ahead of the
start is none.** -/
theorem cyclicScan_eq_some {look : Nat → Option β} {hit : β} (begins : start < n)
    (found : cyclicScan n start look = some hit) :
    ∃ position < n, look position = some hit ∧
      ∀ other < n, stepsTo n start other < stepsTo n start position → look other = none := by
  obtain ⟨offset, short, here, before⟩ := exists_of_findSome?_range found
  refine ⟨(start + offset) % n, Nat.mod_lt _ (by omega), here, fun other inside ahead => ?_⟩
  rw [stepsTo_add begins short] at ahead
  have missed := before _ ahead
  rwa [add_stepsTo begins inside] at missed

end SenderAnalysis

import Mathlib.Data.Int.CardIntervalMod
import Mathlib.Data.List.Nodup

/-!
# Taking items in rotation

The items of a list are taken one after the other, from the first one on, and again from
the first one after the last. After any number of turns, an item has been taken once for
every full round, and once more if its turn in the current round has come
(`count_taken`). So no item is ever more than one turn ahead of another (`taken_fair`).
-/

set_option autoImplicit false

namespace SenderAnalysis.Rotations

variable {α : Type*}

/-- The item of a turn. -/
def turn (items : List α) (number : Nat) : Option α := items[number % items.length]?

/-- What is taken in the first turns. -/
def taken (items : List α) (turns : Nat) : List α := (List.range turns).filterMap (turn items)

theorem taken_succ (items : List α) (turns : Nat) :
    taken items (turns + 1) = taken items turns ++ (turn items turns).toList := by
  rw [taken, List.range_succ, List.filterMap_append]
  cases item : turn items turns <;> simp [item, taken]

variable [BEq α] [LawfulBEq α]

/-- An item without duplicates is taken in every turn that is its own. -/
theorem count_taken_eq_count {items : List α} (distinct : items.Nodup) {place : Nat} {item : α}
    (here : items[place]? = some item) (turns : Nat) :
    (taken items turns).count item = turns.count (· ≡ place [MOD items.length]) := by
  have inside := (List.getElem?_eq_some_iff.mp here).1
  induction turns with
  | zero => rfl
  | succ turns ih =>
    have positive : 0 < items.length := Nat.lt_of_le_of_lt (Nat.zero_le _) inside
    have own : turn items turns = some item ↔ turns ≡ place [MOD items.length] := by
      rw [turn, ← here, Nat.ModEq, Nat.mod_eq_of_lt inside]
      constructor
      · intro same
        exact (List.getElem?_inj (Nat.mod_lt _ positive) distinct).mp same
      · intro same
        rw [same]
    rw [taken_succ, List.count_append, ih, Nat.count_succ]
    congr 1
    by_cases mine : turn items turns = some item
    · rw [if_pos (own.mp mine), mine]
      simp
    · rw [if_neg fun same => mine (own.mpr same)]
      cases other : turn items turns with
      | none => rfl
      | some value =>
        have apart : value ≠ item := fun same => mine (other.trans (congrArg some same))
        simp [apart]

/-- **An item is taken once for every full round, and once more if its turn in the current
round has come.** -/
theorem count_taken {items : List α} (distinct : items.Nodup) {place : Nat} {item : α}
    (here : items[place]? = some item) (turns : Nat) :
    (taken items turns).count item =
      turns / items.length + if place < turns % items.length then 1 else 0 := by
  have inside := (List.getElem?_eq_some_iff.mp here).1
  rw [count_taken_eq_count distinct here, Nat.count_modEq_card turns (by omega),
    Nat.mod_eq_of_lt inside]

/-- **No item is more than one turn ahead of another.** -/
theorem taken_fair {items : List α} (distinct : items.Nodup) {first second : α}
    (one : first ∈ items) (other : second ∈ items) (turns : Nat) :
    (taken items turns).count first ≤ (taken items turns).count second + 1 := by
  obtain ⟨place, here⟩ := List.mem_iff_getElem?.mp one
  obtain ⟨place', there⟩ := List.mem_iff_getElem?.mp other
  rw [count_taken distinct here, count_taken distinct there]
  split <;> split <;> omega

end SenderAnalysis.Rotations

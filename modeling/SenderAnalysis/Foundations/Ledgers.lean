import Mathlib.Data.List.Count
import Mathlib.Data.List.Perm.Basic

/-!
# Ledgers

A system whose parts hand items on reports what it does by events. An item enters, moves
from one part to another, and leaves, and every event of some kind is about one item. How
often events of a kind are about an item is `times`; it is additive in the events, so what
a run says of an item is the sum of what its steps say.

What is taken out of a list at a position is listed once less (`count_eraseIdx`).
-/

set_option autoImplicit false

namespace SenderAnalysis

variable {ε κ : Type*} [BEq κ]

/-- How often events of one kind are about an item. -/
def times (kind : ε → Option κ) (key : κ) (events : List ε) : Nat :=
  (events.filterMap kind).count key

section Times

variable (kind : ε → Option κ) (key : κ)

@[simp] theorem times_nil : times kind key [] = 0 := rfl

@[simp] theorem times_append (first second : List ε) :
    times kind key (first ++ second) = times kind key first + times kind key second := by
  simp [times]

/-- Events that are about no item do not count. -/
theorem times_eq_zero {events : List ε} (silent : ∀ event ∈ events, kind event = none) :
    times kind key events = 0 := by
  rw [times, List.filterMap_eq_nil_iff.mpr silent, List.count_nil]

variable [LawfulBEq κ] [DecidableEq κ]

@[simp] theorem times_cons (event : ε) (rest : List ε) :
    times kind key (event :: rest) =
      (if kind event = some key then 1 else 0) + times kind key rest := by
  cases found : kind event with
  | none => simp [times, found]
  | some other => simp [times, found, List.count_cons, Nat.add_comm]

end Times

section Lists

variable [LawfulBEq κ]

/-- What is taken out at a position is listed once less. -/
theorem count_eraseIdx [DecidableEq κ] (key : κ) {list : List κ} {index : Nat} {item : κ}
    (found : list[index]? = some item) :
    list.count key = (list.eraseIdx index).count key + if item = key then 1 else 0 := by
  obtain ⟨inside, same⟩ := List.getElem?_eq_some_iff.mp found
  rw [← (List.getElem_cons_eraseIdx_perm inside).count_eq key, same, List.count_cons]
  simp

end Lists

end SenderAnalysis

import Mathlib.Data.List.Basic

/-!
# Lists in chunks

A list cut into chunks of a fixed size, the last one shorter, as requests with a bounded
number of items are made of it. Nothing is lost or moved (`flatten_chunks`), no chunk is
empty and none is too long.
-/

set_option autoImplicit false

namespace SenderAnalysis

variable {α : Type*}

/-- Cut chunks off a list, as many as there is fuel for. -/
def chunksFrom (size : Nat) : Nat → List α → List (List α)
  | 0, _ | _, [] => []
  | fuel + 1, item :: rest =>
      (item :: rest).take size :: chunksFrom size fuel ((item :: rest).drop size)

/-- The list in chunks of a size, which is positive. -/
def chunks (size : Nat) (list : List α) : List (List α) := chunksFrom size list.length list

section Chunks

variable {size : Nat} (positive : 0 < size)

include positive in
theorem flatten_chunksFrom (fuel : Nat) (list : List α) (enough : list.length ≤ fuel) :
    (chunksFrom size fuel list).flatten = list := by
  induction fuel generalizing list with
  | zero => simp [chunksFrom, List.length_eq_zero_iff.mp (Nat.le_zero.mp enough)]
  | succ fuel ih =>
    cases list with
    | nil => rfl
    | cons item rest =>
      have shorter : ((item :: rest).drop size).length ≤ fuel := by
        rw [List.length_drop]
        omega
      rw [chunksFrom, List.flatten_cons, ih _ shorter, List.take_append_drop]

include positive in
theorem flatten_chunks (list : List α) : (chunks size list).flatten = list :=
  flatten_chunksFrom positive list.length list (Nat.le_refl _)

include positive in
theorem length_of_mem_chunksFrom (fuel : Nat) (list : List α) :
    ∀ chunk ∈ chunksFrom size fuel list, 0 < chunk.length ∧ chunk.length ≤ size := by
  induction fuel generalizing list with
  | zero => simp [chunksFrom]
  | succ fuel ih =>
    cases list with
    | nil => simp [chunksFrom]
    | cons item rest =>
      intro chunk member
      rcases List.mem_cons.mp member with rfl | later
      · rw [List.length_take, List.length_cons]
        omega
      · exact ih _ chunk later

include positive in
theorem length_of_mem_chunks (list : List α) :
    ∀ chunk ∈ chunks size list, 0 < chunk.length ∧ chunk.length ≤ size :=
  length_of_mem_chunksFrom positive list.length list

include positive in
/-- There are no more chunks than items. -/
theorem length_chunks_le (list : List α) : (chunks size list).length ≤ list.length := by
  have nonempty := length_of_mem_chunks positive list
  have items := congrArg List.length (flatten_chunks positive list)
  rw [List.length_flatten] at items
  have bound : (chunks size list).length ≤ ((chunks size list).map List.length).sum := by
    generalize chunks size list = pieces at nonempty
    induction pieces with
    | nil => exact Nat.zero_le _
    | cons chunk rest ih =>
      have first := (nonempty chunk (List.mem_cons_self ..)).1
      have others := ih fun other member => nonempty other (List.mem_cons_of_mem _ member)
      rw [List.length_cons, List.map_cons, List.sum_cons]
      omega
  omega

end Chunks

end SenderAnalysis

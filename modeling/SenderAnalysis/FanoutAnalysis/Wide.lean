import Mathlib.Data.Fin.VecNotation
import Mathlib.Data.Finset.Sort
import Mathlib.Data.String.Basic
import SenderAnalysis.FanoutAnalysis.OutcomeClasses

/-!
# The win matrix

The paired statistics work on a matrix. It has a row for every trigger, a column for
every sender, and a one where the sender's transaction of the trigger landed. The matrix
is pivoted from a loaded frame, so a row has at most one one: the assertion of the loader
carries over (`loadWide_singleWinner`).
-/

set_option autoImplicit false

namespace SenderAnalysis.FanoutAnalysis

variable {k : Nat}

/-- A matrix of zeros and ones with named columns. -/
structure Wide (k : Nat) where
  cols : Fin k → String
  distinct : Function.Injective cols
  arr : List (Fin k → Bool)

/-- The sum of a column. -/
def landCount (W : List (Fin k → Bool)) (j : Fin k) : Nat := W.countP fun row => row j

/-- Every row has at most one one. -/
def SingleWinner (W : List (Fin k → Bool)) : Prop :=
  ∀ row ∈ W, ∀ i j, row i → row j → i = j

instance (W : List (Fin k → Bool)) : Decidable (SingleWinner W) :=
  inferInstanceAs (Decidable (∀ row ∈ W, ∀ i j, row i → row j → i = j))

/-- Two senders, of which the first landed two triggers and the second one. -/
def sampleWide : Wide 2 where
  cols := !["blockrazor", "nozomi-fra"]
  distinct := by decide
  arr := [![true, false], ![false, true], ![false, false], ![true, false]]

/-- Pivot a frame. The columns are the senders in the order of their names, the rows are
the triggers in the order of their numbers. -/
def loadWide (df : EnrichedFrame) : Wide (Frame.senders df.long.rows).card where
  cols := (Frame.senders df.long.rows).orderEmbOfFin rfl
  distinct := ((Frame.senders df.long.rows).orderEmbOfFin rfl).injective
  arr :=
    let index := (Frame.triggers df.long.rows).mergeSort fun first second =>
      first.value ≤ second.value
    index.map fun trigger j => df.rows.any fun row =>
      row.raw.triggerId = trigger && row.raw.senderName =
        (Frame.senders df.long.rows).orderEmbOfFin rfl j && row.land

/-- A one in the row of a trigger is a landed row of the sender. -/
theorem exists_landed_of_cell {df : EnrichedFrame} {trigger : TriggerId}
    {j : Fin (Frame.senders df.long.rows).card}
    (won : df.rows.any fun row => row.raw.triggerId = trigger &&
      row.raw.senderName = (loadWide df).cols j && row.land) :
    ∃ row ∈ Frame.landed (Frame.group df.long.rows trigger),
      row.senderName = (loadWide df).cols j := by
  obtain ⟨enriched, inRows, holds⟩ := List.any_eq_true.mp won
  obtain ⟨raw, inRaw, rfl⟩ := List.mem_map.mp inRows
  simp only [Bool.and_eq_true, decide_eq_true_eq] at holds
  obtain ⟨⟨same, name⟩, land⟩ := holds
  have inGroup : raw ∈ Frame.group df.long.rows trigger :=
    List.mem_filter.mpr ⟨inRaw, decide_eq_true same⟩
  exact ⟨raw, List.mem_filter.mpr ⟨inGroup, land⟩, name⟩

/-- **In the matrix of a loaded frame every trigger has at most one winner.** -/
theorem loadWide_singleWinner (df : EnrichedFrame) : SingleWinner (loadWide df).arr := by
  intro row mem i j wonI wonJ
  obtain ⟨trigger, isTrigger, rfl⟩ := List.mem_map.mp mem
  rw [List.mem_mergeSort] at isTrigger
  obtain ⟨first, inFirst, nameI⟩ := exists_landed_of_cell wonI
  obtain ⟨second, inSecond, nameJ⟩ := exists_landed_of_cell wonJ
  have same : first = second := by
    obtain none' | one := Nat.le_one_iff_eq_zero_or_eq_one.mp (df.long.paired.2.2 trigger isTrigger)
    · rw [List.length_eq_zero_iff.mp none'] at inFirst
      cases inFirst
    · obtain ⟨only, all⟩ := List.length_eq_one_iff.mp one
      rw [all, List.mem_singleton] at inFirst inSecond
      rw [inFirst, inSecond]
  exact (loadWide df).distinct (nameI.symm.trans (same ▸ nameJ))

end SenderAnalysis.FanoutAnalysis

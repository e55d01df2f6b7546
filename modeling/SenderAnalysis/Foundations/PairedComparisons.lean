import Mathlib.Algebra.BigOperators.Field
import Mathlib.Algebra.Order.BigOperators.Group.Finset
import Mathlib.Algebra.Order.Field.Basic
import Mathlib.Data.Finset.Max
import Mathlib.Tactic.FieldSimp
import Mathlib.Tactic.Linarith

/-!
# Abilities from paired comparisons

Items are compared in pairs. An item has a number of wins, and two items have a number of
comparisons. Abilities are fitted by an update: the ability of an item becomes its wins
over a sum, over the items it was compared with, of the comparisons over the two abilities
together.

In some designs the comparisons are those of rounds in which one item wins against all
others. Then an item has its rounds as wins against every other item, and two items are
compared in the rounds of either. For such a design the positive abilities that the update
leaves in proportion are the multiples of the numbers of rounds that the items won
(`proportional_of_scaled`, `update_of_proportional`). The argument is at the ends: where
the ability is least for the rounds won, the update can only raise it, and where it is
greatest, only lower it.
-/

set_option autoImplicit false

namespace SenderAnalysis.PairedComparisons

variable {ι K : Type*} [DecidableEq ι] [Field K] [LinearOrder K]

/-- One update of the ability of an item. Without comparisons it stays. -/
def update (items : Finset ι) (wins : ι → K) (played : ι → ι → K) (p : ι → K) (i : ι) : K :=
  let denom := ∑ j ∈ items with j ≠ i ∧ 0 < played i j, played i j / (p i + p j)
  if 0 < denom then wins i / denom else p i

/-- Rounds in which one item wins against all others. -/
structure WinnerTakesAll (items : Finset ι) (rounds wins : ι → K) (played : ι → ι → K) :
    Prop where
  several : 2 ≤ items.card
  positive : ∀ i ∈ items, 0 < rounds i
  wins_eq : ∀ i ∈ items, wins i = ((items.card - 1 : Nat) : K) * rounds i
  played_eq : ∀ i ∈ items, ∀ j ∈ items, j ≠ i → played i j = rounds i + rounds j

variable [IsStrictOrderedRing K] {items : Finset ι} {rounds wins : ι → K} {played : ι → ι → K}
  {p : ι → K}

namespace WinnerTakesAll

/-- The others are all compared with an item. -/
theorem denom_eq (design : WinnerTakesAll items rounds wins played) {i : ι} (mem : i ∈ items) :
    ∑ j ∈ items with j ≠ i ∧ 0 < played i j, played i j / (p i + p j) =
      ∑ j ∈ items.erase i, (rounds i + rounds j) / (p i + p j) := by
  have others : items.filter (fun j => j ≠ i ∧ 0 < played i j) = items.erase i := by
    ext j
    rw [Finset.mem_filter, Finset.mem_erase]
    constructor
    · exact fun ⟨inItems, different, _⟩ => ⟨different, inItems⟩
    · rintro ⟨different, inItems⟩
      refine ⟨inItems, different, ?_⟩
      rw [design.played_eq i mem j inItems different]
      exact add_pos (design.positive i mem) (design.positive j inItems)
  rw [others]
  apply Finset.sum_congr rfl
  intro j inOthers
  obtain ⟨different, inItems⟩ := Finset.mem_erase.mp inOthers
  rw [design.played_eq i mem j inItems different]

theorem denom_pos (design : WinnerTakesAll items rounds wins played)
    (positive : ∀ i ∈ items, 0 < p i) {i : ι} (mem : i ∈ items) :
    0 < ∑ j ∈ items.erase i, (rounds i + rounds j) / (p i + p j) := by
  refine Finset.sum_pos ?_ ?_
  · intro j inOthers
    have inItems := Finset.mem_of_mem_erase inOthers
    exact div_pos (add_pos (design.positive i mem) (design.positive j inItems))
      (add_pos (positive i mem) (positive j inItems))
  · apply Finset.card_pos.mp
    rw [Finset.card_erase_of_mem mem]
    have several := design.several
    omega

theorem update_eq (design : WinnerTakesAll items rounds wins played)
    (positive : ∀ i ∈ items, 0 < p i) {i : ι} (mem : i ∈ items) :
    update items wins played p i = ((items.card - 1 : Nat) : K) * rounds i /
      ∑ j ∈ items.erase i, (rounds i + rounds j) / (p i + p j) := by
  rw [update, design.denom_eq mem, if_pos (design.denom_pos positive mem), design.wins_eq i mem]

theorem update_pos (design : WinnerTakesAll items rounds wins played)
    (positive : ∀ i ∈ items, 0 < p i) {i : ι} (mem : i ∈ items) :
    0 < update items wins played p i := by
  rw [design.update_eq positive mem]
  have several := design.several
  have others : (0 : K) < ((items.card - 1 : Nat) : K) := by
    exact_mod_cast (by omega : 0 < items.card - 1)
  exact div_pos (mul_pos others (design.positive i mem)) (design.denom_pos positive mem)

/-- An ability that the update leaves in proportion balances the rounds of the item. -/
theorem balance (design : WinnerTakesAll items rounds wins played)
    (positive : ∀ i ∈ items, 0 < p i) {scale : K} {i : ι} (mem : i ∈ items)
    (scaled : p i = scale * update items wins played p i) :
    ∑ j ∈ items.erase i, (rounds i + rounds j) * p i / (p i + p j) =
      scale * ∑ _j ∈ items.erase i, rounds i := by
  have denom := design.denom_pos positive mem
  rw [design.update_eq positive mem, ← mul_div_assoc, eq_div_iff denom.ne', Finset.mul_sum]
    at scaled
  rw [Finset.sum_const, Finset.card_erase_of_mem mem, nsmul_eq_mul, ← scaled]
  apply Finset.sum_congr rfl
  intro j _
  rw [mul_comm (rounds i + rounds j), mul_div_assoc]

end WinnerTakesAll

/-- The share of an item in its comparisons with another is at most its rounds when its
ability is not larger for them. -/
theorem share_le_iff {a b x y : K} (posX : 0 < x) (posY : 0 < y) :
    (a + b) * x / (x + y) ≤ a ↔ x * b ≤ y * a := by
  rw [div_le_iff₀ (add_pos posX posY)]
  constructor <;> intro less <;> linarith

theorem le_share_iff {a b x y : K} (posX : 0 < x) (posY : 0 < y) :
    a ≤ (a + b) * x / (x + y) ↔ y * a ≤ x * b := by
  rw [le_div_iff₀ (add_pos posX posY)]
  constructor <;> intro less <;> linarith

theorem share_eq_iff {a b x y : K} (posX : 0 < x) (posY : 0 < y) :
    (a + b) * x / (x + y) = a ↔ x * b = y * a := by
  rw [le_antisymm_iff, share_le_iff posX posY, le_share_iff posX posY, le_antisymm_iff]

namespace WinnerTakesAll

theorem sum_rounds_pos (design : WinnerTakesAll items rounds wins played) {i : ι}
    (mem : i ∈ items) : 0 < ∑ _j ∈ items.erase i, rounds i := by
  refine Finset.sum_pos (fun _ _ => design.positive i mem) (Finset.card_pos.mp ?_)
  rw [Finset.card_erase_of_mem mem]
  have several := design.several
  omega

/-- Where the ability is least for the rounds, the update does not lower it. -/
theorem scale_le_one (design : WinnerTakesAll items rounds wins played)
    (positive : ∀ i ∈ items, 0 < p i) {scale : K} {i : ι} (mem : i ∈ items)
    (scaled : p i = scale * update items wins played p i)
    (least : ∀ j ∈ items, p i * rounds j ≤ p j * rounds i) : scale ≤ 1 := by
  have shares : ∑ j ∈ items.erase i, (rounds i + rounds j) * p i / (p i + p j) ≤
      ∑ _j ∈ items.erase i, rounds i := by
    apply Finset.sum_le_sum
    intro j inOthers
    have inItems := Finset.mem_of_mem_erase inOthers
    exact (share_le_iff (positive i mem) (positive j inItems)).mpr (least j inItems)
  rw [design.balance positive mem scaled] at shares
  exact (mul_le_iff_le_one_left (design.sum_rounds_pos mem)).mp shares

/-- Where the ability is greatest for the rounds, the update does not raise it. -/
theorem one_le_scale (design : WinnerTakesAll items rounds wins played)
    (positive : ∀ i ∈ items, 0 < p i) {scale : K} {i : ι} (mem : i ∈ items)
    (scaled : p i = scale * update items wins played p i)
    (greatest : ∀ j ∈ items, p j * rounds i ≤ p i * rounds j) : 1 ≤ scale := by
  have shares : ∑ _j ∈ items.erase i, rounds i ≤
      ∑ j ∈ items.erase i, (rounds i + rounds j) * p i / (p i + p j) := by
    apply Finset.sum_le_sum
    intro j inOthers
    have inItems := Finset.mem_of_mem_erase inOthers
    exact (le_share_iff (positive i mem) (positive j inItems)).mpr (greatest j inItems)
  rw [design.balance positive mem scaled] at shares
  exact (le_mul_iff_one_le_left (design.sum_rounds_pos mem)).mp shares

/-- If the update leaves the least ability for the rounds as it is, all abilities are in
proportion to the rounds. -/
theorem proportional_of_least (design : WinnerTakesAll items rounds wins played)
    (positive : ∀ i ∈ items, 0 < p i) {i : ι} (mem : i ∈ items)
    (fixed : p i = update items wins played p i)
    (least : ∀ j ∈ items, p i * rounds j ≤ p j * rounds i) :
    ∀ j ∈ items, p i * rounds j = p j * rounds i := by
  have shares := design.balance positive mem (fixed.trans (one_mul _).symm)
  rw [one_mul, Finset.sum_eq_sum_iff_of_le] at shares
  · intro j inItems
    by_cases same : j = i
    · rw [same]
    · exact (share_eq_iff (positive i mem) (positive j inItems)).mp
        (shares j (Finset.mem_erase.mpr ⟨same, inItems⟩))
  · intro j inOthers
    have inItems := Finset.mem_of_mem_erase inOthers
    exact (share_le_iff (positive i mem) (positive j inItems)).mpr (least j inItems)

end WinnerTakesAll

/-- **Positive abilities that the update leaves in proportion are a multiple of the rounds
that the items won.** -/
theorem proportional_of_scaled (design : WinnerTakesAll items rounds wins played)
    (positive : ∀ i ∈ items, 0 < p i) {scale : K}
    (scaled : ∀ i ∈ items, p i = scale * update items wins played p i) :
    ∃ factor > 0, ∀ i ∈ items, p i = factor * rounds i := by
  have nonempty : items.Nonempty := Finset.card_pos.mp (by have := design.several; omega)
  have cross : ∀ i ∈ items, ∀ j ∈ items, p i / rounds i ≤ p j / rounds j →
      p i * rounds j ≤ p j * rounds i := by
    intro i inItems j inItems' less
    rwa [div_le_div_iff₀ (design.positive i inItems) (design.positive j inItems')] at less
  obtain ⟨low, inLow, least⟩ := items.exists_min_image (fun i => p i / rounds i) nonempty
  obtain ⟨high, inHigh, greatest⟩ := items.exists_max_image (fun i => p i / rounds i) nonempty
  have below : ∀ j ∈ items, p low * rounds j ≤ p j * rounds low :=
    fun j inItems => cross low inLow j inItems (least j inItems)
  have above : ∀ j ∈ items, p j * rounds high ≤ p high * rounds j :=
    fun j inItems => cross j inItems high inHigh (greatest j inItems)
  have unscaled : scale = 1 := le_antisymm
    (design.scale_le_one positive inLow (scaled low inLow) below)
    (design.one_le_scale positive inHigh (scaled high inHigh) above)
  have fixed := scaled low inLow
  rw [unscaled, one_mul] at fixed
  have equal := design.proportional_of_least positive inLow fixed below
  refine ⟨p low / rounds low, div_pos (positive low inLow) (design.positive low inLow), ?_⟩
  intro i inItems
  rw [div_mul_eq_mul_div, equal i inItems, mul_div_cancel_right₀]
  exact (design.positive low inLow).ne'

/-- **The update leaves a positive multiple of the rounds as it is.** -/
theorem update_of_proportional (design : WinnerTakesAll items rounds wins played) {factor : K}
    (posFactor : 0 < factor) (proportional : ∀ i ∈ items, p i = factor * rounds i) :
    ∀ i ∈ items, update items wins played p i = p i := by
  intro i mem
  have positive : ∀ j ∈ items, 0 < p j := by
    intro j inItems
    rw [proportional j inItems]
    exact mul_pos posFactor (design.positive j inItems)
  have denom : ∑ j ∈ items.erase i, (rounds i + rounds j) / (p i + p j) =
      ((items.card - 1 : Nat) : K) * (1 / factor) := by
    rw [← Finset.card_erase_of_mem mem, ← nsmul_eq_mul]
    apply Finset.sum_eq_card_nsmul
    intro j inOthers
    have inItems := Finset.mem_of_mem_erase inOthers
    have sum := (add_pos (design.positive i mem) (design.positive j inItems)).ne'
    rw [proportional i mem, proportional j inItems, ← mul_add, div_mul_cancel_right₀ sum,
      one_div]
  have others : ((items.card - 1 : Nat) : K) ≠ 0 := by
    have several := design.several
    exact_mod_cast (by omega : items.card - 1 ≠ 0)
  rw [design.update_eq positive mem, denom, mul_div_mul_left _ _ others, one_div, div_inv_eq_mul,
    mul_comm, proportional i mem]

end SenderAnalysis.PairedComparisons

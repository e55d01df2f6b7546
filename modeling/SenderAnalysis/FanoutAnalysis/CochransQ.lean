import Mathlib.Tactic.Linarith
import SenderAnalysis.FanoutAnalysis.Wide
import SenderAnalysis.Foundations.Dispersion

/-!
# Differences between the senders

Whether the senders differ at all is tested on the win matrix with Cochran's Q, and then
every pair of senders is tested on the triggers that only one of the two landed.

Both the numerator and the denominator of Q are spreads: the numerator is that of the
column sums (`numerator_eq_spread`), and the denominator is the sum of those of the rows
(`denom_eq_sum_spread`). What Q does follows from this. A row of zeros or of ones has no
spread and shifts all columns alike. In a matrix with at most one winner in a row, Q is
determined by the column sums, and the pairs are tested on them too.

The tail of the chi-squared distribution and the binomial test are parameters.
-/

set_option autoImplicit false

namespace SenderAnalysis.FanoutAnalysis

variable {k : Nat}

/-! ## The statistic -/

/-- The sum of a row. -/
def rowSum (row : Fin k → Bool) : Nat := ∑ j, (row j).toNat

/-- The sum of the matrix. -/
def total (W : List (Fin k → Bool)) : Nat := (W.map rowSum).sum

/-- The denominator of the statistic. -/
def cochransDenom (W : List (Fin k → Bool)) : Rat :=
  k * total W - (W.map fun row => (rowSum row : Rat) ^ 2).sum

/-- The statistic, its degrees of freedom and its p-value. -/
def cochransQ (chi2Sf : Rat → Nat → Rat) (W : List (Fin k → Bool)) : Rat × Nat × Rat :=
  let denom := cochransDenom W
  if denom = 0 then (0, k - 1, 1)
  else
    let Q := (k - 1) * (k * ∑ j, (landCount W j : Rat) ^ 2 - (total W : Rat) ^ 2) / denom
    (Q, k - 1, chi2Sf Q (k - 1))

/-! ## The pairs -/

/-- The pairs of the elements of a list, the earlier element first. -/
def combinations {α : Type} : List α → List (α × α)
  | [] => []
  | first :: rest => rest.map (fun second => (first, second)) ++ combinations rest

/-- The rows with a one in the first column and a zero in the second. -/
def discordant (W : List (Fin k → Bool)) (ia ib : Fin k) : Nat :=
  W.countP fun row => row ia && !row ib

/-- The exact test of two discordant counts. -/
def mcnemarExact (binomTest : Nat → Nat → Rat) (b c : Nat) : Rat :=
  if b + c = 0 then 1 else binomTest (min b c) (b + c)

/-- The row of a pair. -/
structure McnemarRec where
  senderA : String
  senderB : String
  bAOnly : Nat
  cBOnly : Nat
  nDiscordant : Nat
  diffBMinusC : Int
  pValue : Rat
deriving DecidableEq, Repr

/-- Compare every pair of senders. -/
def Wide.mcnemarRecs (wide : Wide k) (binomTest : Nat → Nat → Rat) : List McnemarRec :=
  (combinations (List.finRange k)).map fun (ia, ib) =>
    let bDisc := discordant wide.arr ia ib
    let cDisc := discordant wide.arr ib ia
    { senderA := wide.cols ia
      senderB := wide.cols ib
      bAOnly := bDisc
      cBOnly := cDisc
      nDiscordant := bDisc + cDisc
      diffBMinusC := bDisc - cDisc
      pValue := mcnemarExact binomTest bDisc cDisc }

/-! ## Sums -/

variable {W : List (Fin k → Bool)} {row : Fin k → Bool}

theorem landCount_cons (row : Fin k → Bool) (W : List (Fin k → Bool)) (j : Fin k) :
    landCount (row :: W) j = landCount W j + (row j).toNat := by
  rw [landCount, landCount, List.countP_cons]
  cases row j <;> rfl

/-- The columns sum to the sum of the matrix. -/
theorem total_eq_sum_landCount (W : List (Fin k → Bool)) : total W = ∑ j, landCount W j := by
  induction W with
  | nil => simp [total, landCount]
  | cons row W ih =>
    simp only [landCount_cons, Finset.sum_add_distrib, ← ih]
    rw [total, List.map_cons, List.sum_cons, Nat.add_comm]
    rfl

theorem rowSum_cast (row : Fin k → Bool) : (rowSum row : Rat) = ∑ j, ((row j).toNat : Rat) :=
  Nat.cast_sum _ _

/-- The spread of a row of zeros and ones. -/
theorem spread_row (row : Fin k → Bool) :
    spread (fun j => ((row j).toNat : Rat)) = k * rowSum row - (rowSum row : Rat) ^ 2 := by
  rw [spread_of_sq_eq, ← rowSum_cast, Fintype.card_fin]
  intro j
  cases row j <;> norm_num

/-- **The denominator is the sum of the spreads of the rows.** -/
theorem denom_eq_sum_spread (W : List (Fin k → Bool)) :
    cochransDenom W = (W.map fun row => spread fun j => ((row j).toNat : Rat)).sum := by
  induction W with
  | nil => simp [cochransDenom, total]
  | cons row W ih =>
    rw [List.map_cons, List.sum_cons, ← ih, spread_row, cochransDenom, cochransDenom, total, total]
    simp only [List.map_cons, List.sum_cons, Nat.cast_add]
    ring

/-- **The numerator is the spread of the columns.** -/
theorem numerator_eq_spread (W : List (Fin k → Bool)) :
    k * ∑ j, (landCount W j : Rat) ^ 2 - (total W : Rat) ^ 2 =
      spread fun j => (landCount W j : Rat) := by
  rw [spread, total_eq_sum_landCount, Fintype.card_fin, Nat.cast_sum]

/-! ## The denominator -/

/-- A row of zeros or of ones. -/
def IsConstant (row : Fin k → Bool) : Prop := (∀ j, row j = false) ∨ ∀ j, row j = true

theorem isConstant_iff : IsConstant row ↔ ∀ i j, row i = row j := by
  constructor
  · rintro (zeros | ones) i j
    · rw [zeros i, zeros j]
    · rw [ones i, ones j]
  · intro equal
    by_cases one : ∃ i, row i = true
    · obtain ⟨i, won⟩ := one
      exact Or.inr fun j => equal j i ▸ won
    · exact Or.inl fun j => eq_false_of_ne_true fun won => one ⟨j, won⟩

theorem spread_row_eq_zero_iff :
    spread (fun j => ((row j).toNat : Rat)) = 0 ↔ IsConstant row := by
  have injective : ∀ a b : Bool, a.toNat = b.toNat ↔ a = b := by decide
  rw [spread_eq_zero_iff, isConstant_iff]
  simp only [Nat.cast_inj, injective]

theorem denom_nonneg (W : List (Fin k → Bool)) : 0 ≤ cochransDenom W := by
  rw [denom_eq_sum_spread]
  apply List.sum_nonneg
  intro part mem
  obtain ⟨row, _, rfl⟩ := List.mem_map.mp mem
  exact spread_nonneg _

theorem denom_append (first second : List (Fin k → Bool)) :
    cochransDenom (first ++ second) = cochransDenom first + cochransDenom second := by
  rw [denom_eq_sum_spread, denom_eq_sum_spread, denom_eq_sum_spread, List.map_append,
    List.sum_append]

/-- **The denominator is zero exactly when all rows are constant.** -/
theorem denom_eq_zero_iff : cochransDenom W = 0 ↔ ∀ row ∈ W, IsConstant row := by
  induction W with
  | nil => simp [denom_eq_sum_spread]
  | cons row W ih =>
    have split : cochransDenom (row :: W) = cochransDenom [row] + cochransDenom W :=
      denom_append [row] W
    rw [split, add_eq_zero_iff_of_nonneg (denom_nonneg _) (denom_nonneg W), ih,
      List.forall_mem_cons, denom_eq_sum_spread, List.map_singleton, List.sum_singleton,
      spread_row_eq_zero_iff]

/-! ## The statistic and its invariances -/

variable {chi2Sf : Rat → Nat → Rat}

/-- The statistic by spreads. -/
theorem cochransQ_eq (nonzero : cochransDenom W ≠ 0) :
    (cochransQ chi2Sf W).1 =
      (k - 1) * spread (fun j => (landCount W j : Rat)) / cochransDenom W := by
  rw [cochransQ, if_neg nonzero, ← numerator_eq_spread]

theorem cochransQ_congr {W' : List (Fin k → Bool)} (denom : cochransDenom W = cochransDenom W')
    (columns : spread (fun j => (landCount W j : Rat)) = spread fun j => (landCount W' j : Rat)) :
    cochransQ chi2Sf W = cochransQ chi2Sf W' := by
  rw [cochransQ, cochransQ, numerator_eq_spread, numerator_eq_spread, denom, columns]

theorem cochransQ_perm {W' : List (Fin k → Bool)} (perm : W.Perm W') :
    cochransQ chi2Sf W = cochransQ chi2Sf W' := by
  refine cochransQ_congr ?_ ?_
  · rw [denom_eq_sum_spread, denom_eq_sum_spread]
    exact (perm.map _).sum_eq
  · simp only [landCount, perm.countP_eq]

/-- Constant rows shift all columns alike. -/
theorem landCount_constants {constants : List (Fin k → Bool)}
    (all : ∀ row ∈ constants, IsConstant row) (i j : Fin k) :
    landCount constants i = landCount constants j := by
  apply List.countP_congr
  intro row mem
  rw [isConstant_iff.mp (all row mem) i j]

/-- **Constant rows do not matter.** -/
theorem cochransQ_append {constants : List (Fin k → Bool)}
    (all : ∀ row ∈ constants, IsConstant row) :
    cochransQ chi2Sf (W ++ constants) = cochransQ chi2Sf W := by
  refine cochransQ_congr ?_ ?_
  · rw [denom_append, denom_eq_zero_iff.mpr all, add_zero]
  · cases k with
    | zero => rfl
    | succ k =>
      have shifted : ∀ j, (landCount (W ++ constants) j : Rat) =
          landCount W j + landCount constants 0 := by
        intro j
        rw [landCount, List.countP_append, Nat.cast_add, ← landCount_constants all j 0]
        rfl
      simp only [shifted, spread_add_const]

theorem degrees_pos (several : 2 ≤ k) : (0 : Rat) < k - 1 := by
  have atLeast : (2 : Rat) ≤ k := by exact_mod_cast several
  linarith

theorem cochransQ_nonneg (several : 2 ≤ k) (nonzero : cochransDenom W ≠ 0) :
    0 ≤ (cochransQ chi2Sf W).1 := by
  rw [cochransQ_eq nonzero]
  exact div_nonneg (mul_nonneg (degrees_pos several).le (spread_nonneg _)) (denom_nonneg W)

/-- **The statistic is zero exactly when all columns have the same sum.** -/
theorem cochransQ_eq_zero_iff (several : 2 ≤ k) (nonzero : cochransDenom W ≠ 0) :
    (cochransQ chi2Sf W).1 = 0 ↔ ∀ i j, landCount W i = landCount W j := by
  rw [cochransQ_eq nonzero, div_eq_zero_iff, or_iff_left nonzero, mul_eq_zero,
    or_iff_right (degrees_pos several).ne', spread_eq_zero_iff]
  simp only [Nat.cast_inj]

/-! ## At most one winner -/

theorem rowSum_sq (single : ∀ i j, row i → row j → i = j) : rowSum row ^ 2 = rowSum row := by
  by_cases one : ∃ a, row a
  · obtain ⟨a, won⟩ := one
    have sum : rowSum row = 1 := by
      rw [rowSum, Finset.sum_eq_single a, won, Bool.toNat_true]
      · intro b _ different
        rw [eq_false_of_ne_true fun alsoWon => different (single b a alsoWon won), Bool.toNat_false]
      · exact fun absent => absurd (Finset.mem_univ a) absent
    rw [sum, one_pow]
  · have sum : rowSum row = 0 := by
      apply Finset.sum_eq_zero
      intro a _
      rw [eq_false_of_ne_true fun won => one ⟨a, won⟩, Bool.toNat_false]
    rw [sum, zero_pow two_ne_zero]

theorem denom_of_single (single : SingleWinner W) : cochransDenom W = (k - 1) * total W := by
  have squares : (W.map fun row => (rowSum row : Rat) ^ 2) =
      W.map fun row => (rowSum row : Rat) := by
    apply List.map_congr_left
    intro row mem
    exact_mod_cast rowSum_sq (single row mem)
  have sum : (W.map fun row => (rowSum row : Rat)).sum = total W := by
    rw [total, Nat.cast_list_sum, List.map_map]
    rfl
  rw [cochransDenom, squares, sum]
  ring

/-- With at most one winner in a row, the statistic is determined by the columns. -/
theorem cochransQ_of_single (several : 2 ≤ k) (single : SingleWinner W)
    (won : ∃ row ∈ W, ∃ j, row j) :
    (cochransQ chi2Sf W).1 =
      (k * ∑ j, (landCount W j : Rat) ^ 2 - (∑ j, (landCount W j : Rat)) ^ 2) /
        ∑ j, (landCount W j : Rat) := by
  have sum : ∑ j, (landCount W j : Rat) = total W := by
    rw [total_eq_sum_landCount, Nat.cast_sum]
  have totalPos : (total W : Rat) ≠ 0 := by
    obtain ⟨row, mem, j, isOne⟩ := won
    have landed : 0 < landCount W j := List.countP_pos_iff.mpr ⟨row, mem, isOne⟩
    have positive : 0 < total W := by
      rw [total_eq_sum_landCount]
      exact landed.trans_le (Finset.single_le_sum (fun _ _ => Nat.zero_le _) (Finset.mem_univ j))
    exact_mod_cast positive.ne'
  have nonzero : cochransDenom W ≠ 0 := by
    rw [denom_of_single single]
    exact mul_ne_zero (degrees_pos several).ne' totalPos
  rw [cochransQ_eq nonzero, denom_of_single single,
    mul_div_mul_left _ _ (degrees_pos several).ne', sum, ← numerator_eq_spread]

theorem discordant_of_single (single : SingleWinner W) {a b : Fin k} (different : a ≠ b) :
    discordant W a b = landCount W a := by
  apply List.countP_congr
  intro row mem
  rw [Bool.and_eq_true, Bool.not_eq_true', and_iff_left_iff_imp]
  exact fun won => eq_false_of_ne_true fun alsoWon => different (single row mem a b won alsoWon)

/-- The pairs of a sorted list. -/
theorem mem_combinations {l : List (Fin k)} (sorted : l.Pairwise (· < ·)) {a b : Fin k} :
    (a, b) ∈ combinations l ↔ a ∈ l ∧ b ∈ l ∧ a < b := by
  induction sorted with
  | nil => simp [combinations]
  | @cons first rest before _ ih =>
    rw [combinations, List.mem_append, ih]
    simp only [List.mem_map, Prod.mk.injEq, exists_eq_right_right, List.mem_cons]
    constructor
    · rintro (⟨inRest, rfl⟩ | ⟨inRest, inRest', less⟩)
      · exact ⟨Or.inl rfl, Or.inr inRest, before b inRest⟩
      · exact ⟨Or.inr inRest, Or.inr inRest', less⟩
    · rintro ⟨rfl | inRest, rfl | inRest', less⟩
      · exact absurd less (lt_irrefl _)
      · exact Or.inl ⟨inRest', rfl⟩
      · exact absurd (less.trans (before a inRest)) (lt_irrefl _)
      · exact Or.inr ⟨inRest, inRest', less⟩

/-- **With at most one winner in a row, the pairs are compared on their columns.** -/
theorem mem_mcnemarRecs {wide : Wide k} (single : SingleWinner wide.arr)
    {binomTest : Nat → Nat → Rat} {r : McnemarRec} :
    r ∈ wide.mcnemarRecs binomTest ↔ ∃ a b, a < b ∧ r =
      { senderA := wide.cols a
        senderB := wide.cols b
        bAOnly := landCount wide.arr a
        cBOnly := landCount wide.arr b
        nDiscordant := landCount wide.arr a + landCount wide.arr b
        diffBMinusC := landCount wide.arr a - landCount wide.arr b
        pValue := mcnemarExact binomTest (landCount wide.arr a) (landCount wide.arr b) } := by
  rw [Wide.mcnemarRecs, List.mem_map, Prod.exists]
  constructor
  · rintro ⟨a, b, mem, rfl⟩
    have less := ((mem_combinations (List.pairwise_lt_finRange k)).mp mem).2.2
    refine ⟨a, b, less, ?_⟩
    simp only [discordant_of_single single less.ne, discordant_of_single single less.ne']
  · rintro ⟨a, b, less, rfl⟩
    refine ⟨a, b, (mem_combinations (List.pairwise_lt_finRange k)).mpr
      ⟨List.mem_finRange a, List.mem_finRange b, less⟩, ?_⟩
    simp only [discordant_of_single single less.ne, discordant_of_single single less.ne']

/-! ## What the tests measure -/

/-- **What the statistic does on every matrix, and what it and the pairwise tests measure
when every row has at most one winner.** -/
theorem cochransQ_spec (several : 2 ≤ k) (chi2Sf : Rat → Nat → Rat) (W : List (Fin k → Bool)) :
    0 ≤ cochransDenom W ∧ (cochransDenom W = 0 ↔ ∀ row ∈ W, IsConstant row) ∧
    (cochransDenom W ≠ 0 → 0 ≤ (cochransQ chi2Sf W).1 ∧
      ((cochransQ chi2Sf W).1 = 0 ↔ ∀ i j, landCount W i = landCount W j)) ∧
    (∀ W' constants, (∀ row ∈ constants, IsConstant row) → W'.Perm (W ++ constants) →
      cochransQ chi2Sf W' = cochransQ chi2Sf W) ∧
    (SingleWinner W → (∃ row ∈ W, ∃ j, row j) → (cochransQ chi2Sf W).1 =
      (k * ∑ j, (landCount W j : Rat) ^ 2 - (∑ j, (landCount W j : Rat)) ^ 2) /
        ∑ j, (landCount W j : Rat)) ∧
    (SingleWinner W → (∀ a b, a ≠ b → discordant W a b = landCount W a) ∧
      ∀ wide : Wide k, wide.arr = W → ∀ binomTest r, r ∈ wide.mcnemarRecs binomTest ↔
        ∃ a b, a < b ∧ r =
          { senderA := wide.cols a
            senderB := wide.cols b
            bAOnly := landCount W a
            cBOnly := landCount W b
            nDiscordant := landCount W a + landCount W b
            diffBMinusC := landCount W a - landCount W b
            pValue := mcnemarExact binomTest (landCount W a) (landCount W b) }) := by
  refine ⟨denom_nonneg W, denom_eq_zero_iff, ?_, ?_, cochransQ_of_single several, ?_⟩
  · exact fun nonzero => ⟨cochransQ_nonneg several nonzero, cochransQ_eq_zero_iff several nonzero⟩
  · exact fun _ _ all perm => (cochransQ_perm perm).trans (cochransQ_append all)
  · intro single
    refine ⟨fun _ _ => discordant_of_single single, ?_⟩
    rintro wide rfl binomTest r
    exact mem_mcnemarRecs single

theorem cochransQ_spec_sample :
    cochransDenom sampleWide.arr ≠ 0 ∧ (cochransQ (fun _ _ => 1) sampleWide.arr).1 = 1 / 3 ∧
      (cochransQ (fun _ _ => 1) (sampleWide.arr ++ [![true, true]])).1 = 1 / 3 ∧
      discordant sampleWide.arr 0 1 = 2 := by
  have ⟨_, zero, _, same, value, pairs⟩ :=
    cochransQ_spec (by decide) (fun _ _ => 1) sampleWide.arr
  have third := (value (by decide) (by decide)).trans
    (by decide +kernel : _ = (1 / 3 : Rat))
  have constant : ∀ row ∈ [![true, true]], IsConstant row := by
    intro row mem
    rw [List.mem_singleton.mp mem]
    exact Or.inr (by decide)
  refine ⟨?_, third, ?_, (pairs (by decide)).1 0 1 (by decide)⟩
  · intro isZero
    have first := zero.mp isZero ![true, false] List.mem_cons_self
    exact absurd (isConstant_iff.mp first 0 1) (by decide)
  · rw [same _ _ constant (List.Perm.refl _), third]

/-- **On a loaded run the pairwise tests compare the landed triggers of the senders.** -/
theorem mem_mcnemarRecs_loadWide (df : EnrichedFrame) {binomTest : Nat → Nat → Rat}
    {r : McnemarRec} (mem : r ∈ (loadWide df).mcnemarRecs binomTest) :
    ∃ a b, a < b ∧ r.senderA = (loadWide df).cols a ∧ r.senderB = (loadWide df).cols b ∧
      r.bAOnly = landCount (loadWide df).arr a ∧ r.cBOnly = landCount (loadWide df).arr b := by
  obtain ⟨a, b, less, rfl⟩ := (mem_mcnemarRecs (loadWide_singleWinner df)).mp mem
  exact ⟨a, b, less, rfl, rfl, rfl, rfl⟩

end SenderAnalysis.FanoutAnalysis

import Mathlib.Data.List.FinRange
import SenderAnalysis.FanoutAnalysis.Wide
import SenderAnalysis.Foundations.PairedComparisons
import SenderAnalysis.Foundations.Tallies

/-!
# The pairwise ranking

The senders are ranked by abilities that are fitted to pairwise wins. The wins are built
from the win matrix: the winner of a trigger wins once against every other sender. So a
sender has its landed triggers as wins against every other sender
(`buildWinCounts_get_eq_some`), two senders met in the landed triggers of either, and the design
is one in which a winner takes all (`winnerTakesAll`).

In such a design the abilities that the fit settles at are in proportion to the landed
triggers (`bradleyTerry_iff_landCount`): the ranking is the one by landed triggers.

Abilities are over any ordered field. The geometric mean by which they are divided, and
the test that they hardly changed, are parameters.
-/

set_option autoImplicit false

namespace SenderAnalysis.FanoutAnalysis

variable {k : Nat}

/-! ## Pairwise wins -/

namespace Wide

variable (wide : Wide k)

/-- The senders with a one in a row. -/
def winners (row : Fin k → Bool) : List String :=
  ((List.finRange k).filter fun j => row j).map wide.cols

/-- For each trigger's single winner and every other sender, a win. -/
def buildWinCounts : HashTable (String × String) Nat :=
  wide.arr.foldl (fun winCounts row =>
    match wide.winners row with
    -- a trigger without a winner contributes nothing
    | [] => winCounts
    | w :: _ => (List.ofFn wide.cols).foldl (fun winCounts s =>
        if s = w then winCounts else winCounts.addTo (w, s) 1) winCounts) HashTable.empty

/-- The column of a sender. -/
def index (c : String) : Option (Fin k) := (List.finRange k).find? fun j => wide.cols j = c

/-- The triggers that a sender landed. -/
def landCounts (c : String) : Nat := ((wide.index c).map (landCount wide.arr)).getD 0

theorem landCounts_cols (a : Fin k) : wide.landCounts (wide.cols a) = landCount wide.arr a := by
  have found : wide.index (wide.cols a) = some a := by
    cases result : wide.index (wide.cols a) with
    | none =>
      exact absurd (decide_eq_true rfl) (List.find?_eq_none.mp result a (List.mem_finRange a))
    | some b =>
      unfold index at result
      have same := List.find?_some result
      exact congrArg some (wide.distinct (of_decide_eq_true same))
  rw [landCounts, found, Option.map_some, Option.getD_some]

end Wide

/-! ## The fit -/

namespace BradleyTerry

variable (winCounts : HashTable (String × String) Nat)

/-- The names in the pairs. Vectors are indexed by them. -/
def items : Finset String :=
  (winCounts.entries.flatMap fun entry => [entry.1.1, entry.1.2]).toFinset

/-- The wins of an item. -/
def w : HashTable String Nat :=
  HashTable.tally (fun entry => entry.1.1) (fun entry => entry.2) winCounts.entries

/-- The number of times that two items met. -/
def M : HashTable (String × String) Nat :=
  HashTable.tally Prod.fst Prod.snd (winCounts.entries.flatMap fun entry =>
    [((entry.1.1, entry.1.2), entry.2), ((entry.1.2, entry.1.1), entry.2)])

section Fit

variable {K : Type*} [Field K] [LinearOrder K]

/-- The abilities after an update, before they are normalised. -/
def update (p : String → K) : String → K :=
  PairedComparisons.update (items winCounts) (fun i => (((w winCounts).get i).getD 0 : Nat))
    (fun i j => (((M winCounts).get (i, j)).getD 0 : Nat)) p

/-- One round of the fit. -/
def step (geometricMean : (String → K) → K) (p : String → K) : String → K :=
  let pNew := update winCounts p
  if ∀ i ∈ items winCounts, 0 < pNew i then fun i => pNew i / geometricMean pNew else pNew

/-- The rounds of the fit, until the abilities hardly change. -/
def loop (geometricMean : (String → K) → K) (close : (String → K) → (String → K) → Bool) :
    Nat → (String → K) → String → K
  | 0, p => p
  | maxIter + 1, p =>
    let pNew := step winCounts geometricMean p
    if close pNew p then pNew else loop geometricMean close maxIter pNew

/-- Fit the abilities. They start at one. -/
def bradleyTerry (geometricMean : (String → K) → K)
    (close : (String → K) → (String → K) → Bool) (maxIter : Nat) : String → K :=
  loop winCounts geometricMean close maxIter fun _ => 1

end Fit

end BradleyTerry

/-! ## The wins of a trigger -/

namespace Wide

variable (wide : Wide k)

/-- The pairs that a trigger adds a win to. -/
def wins (row : Fin k → Bool) : List (String × String) :=
  match wide.winners row with
  | [] => []
  | w :: _ => ((List.ofFn wide.cols).filter fun s => s ≠ w).map fun s => (w, s)

theorem buildWinCounts_eq :
    wide.buildWinCounts = HashTable.tally id (fun _ => 1) (wide.arr.flatMap wide.wins) := by
  rw [buildWinCounts, HashTable.tally, List.foldl_flatMap]
  congr 1
  funext winCounts row
  unfold wins
  cases wide.winners row with
  | nil => rfl
  | cons w rest =>
    simp only [List.foldl_map, List.foldl_filter, decide_eq_true_eq, ite_not, id, ne_eq]

variable {wide} {row : Fin k → Bool}

theorem winners_eq (single : ∀ i j, row i → row j → i = j) {a : Fin k} (won : row a) :
    wide.winners row = [wide.cols a] := by
  have only : (List.finRange k).filter (fun j => row j) = [a] := by
    apply List.perm_singleton.mp
    refine (List.perm_ext_iff_of_nodup ((List.nodup_finRange k).filter _)
      (List.nodup_singleton a)).mpr ?_
    intro j
    rw [List.mem_filter, List.mem_singleton]
    exact ⟨fun ⟨_, alsoWon⟩ => single j a alsoWon won, fun same =>
      ⟨List.mem_finRange j, same ▸ won⟩⟩
  rw [winners, only, List.map_singleton]

theorem winners_eq_nil (none' : ∀ a, ¬row a) : wide.winners row = [] := by
  rw [winners, List.map_eq_nil_iff, List.filter_eq_nil_iff]
  exact fun j _ => none' j

/-- A trigger adds wins of its winner against the others. -/
theorem mem_wins (single : ∀ i j, row i → row j → i = j) {pair : String × String} :
    pair ∈ wide.wins row ↔ ∃ a b, row a ∧ b ≠ a ∧ pair = (wide.cols a, wide.cols b) := by
  by_cases some' : ∃ a, row a
  · obtain ⟨a, won⟩ := some'
    rw [wins, winners_eq single won]
    simp only [List.mem_map, List.mem_filter, List.mem_ofFn, decide_eq_true_eq]
    constructor
    · rintro ⟨_, ⟨⟨b, rfl⟩, different⟩, rfl⟩
      exact ⟨a, b, won, fun same => different (congrArg wide.cols same), rfl⟩
    · rintro ⟨a', b, alsoWon, different, rfl⟩
      obtain rfl := single a' a alsoWon won
      exact ⟨_, ⟨⟨b, rfl⟩, fun same => different (wide.distinct same)⟩, rfl⟩
  · rw [wins, winners_eq_nil fun a won => some' ⟨a, won⟩]
    constructor
    · intro mem
      cases mem
    · rintro ⟨a, _, won, _⟩
      exact absurd ⟨a, won⟩ some'

theorem nodup_wins : (wide.wins row).Nodup := by
  unfold wins
  split
  · exact List.nodup_nil
  · apply ((List.nodup_ofFn.mpr wide.distinct).filter _).map
    exact fun _ _ same => (Prod.mk.inj same).2

/-- A trigger adds one win of its winner against another sender. -/
theorem amountOf_wins (single : ∀ i j, row i → row j → i = j) {a b : Fin k} (different : b ≠ a) :
    amountOf id (fun _ => 1) (wide.wins row) (wide.cols a, wide.cols b) =
      if row a then 1 else 0 := by
  have won : (wide.cols a, wide.cols b) ∈ wide.wins row ↔ row a := by
    rw [mem_wins single]
    constructor
    · rintro ⟨a', _, won, _, same⟩
      exact wide.distinct (Prod.mk.inj same).1 ▸ won
    · exact fun won => ⟨a, b, won, different, rfl⟩
  have count : List.count (wide.cols a, wide.cols b) (wide.wins row) = if row a then 1 else 0 := by
    rw [nodup_wins.count]
    simp only [won]
  rw [amountOf_one, ← count, List.count_eq_countP]
  exact List.countP_congr fun pair _ => by simp

/-- The triggers that add a win of a sender against another are those it landed. -/
theorem amountOf_flatMap_wins {rows : List (Fin k → Bool)} (single : SingleWinner rows)
    {a b : Fin k} (different : b ≠ a) :
    amountOf id (fun _ => 1) (rows.flatMap wide.wins) (wide.cols a, wide.cols b) =
      landCount rows a := by
  induction rows with
  | nil => rfl
  | cons row rows ih =>
    have later : SingleWinner rows := fun other mem => single other (List.mem_cons_of_mem row mem)
    rw [List.flatMap_cons, amountOf_append, amountOf_wins (single row List.mem_cons_self) different,
      ih later, landCount, landCount, List.countP_cons, Nat.add_comm]

/-- **The pairwise wins are, for every sender that landed a trigger and every other, the
triggers that it landed.** -/
theorem buildWinCounts_get_eq_some (single : SingleWinner wide.arr) {pair : String × String}
    {count : Nat} :
    wide.buildWinCounts.get pair = some count ↔ ∃ a b, b ≠ a ∧
      pair = (wide.cols a, wide.cols b) ∧ count = landCount wide.arr a ∧ 0 < count := by
  rw [buildWinCounts_eq, HashTable.get_tally, List.map_id]
  have mem : pair ∈ wide.arr.flatMap wide.wins ↔ ∃ a b, b ≠ a ∧
      pair = (wide.cols a, wide.cols b) ∧ 0 < landCount wide.arr a := by
    rw [List.mem_flatMap]
    constructor
    · rintro ⟨row, inArr, inWins⟩
      obtain ⟨a, b, won, different, same⟩ := (mem_wins (single row inArr)).mp inWins
      exact ⟨a, b, different, same, List.countP_pos_iff.mpr ⟨row, inArr, won⟩⟩
    · rintro ⟨a, b, different, same, landed⟩
      obtain ⟨row, inArr, won⟩ := List.countP_pos_iff.mp landed
      exact ⟨row, inArr, (mem_wins (single row inArr)).mpr ⟨a, b, won, different, same⟩⟩
  constructor
  · intro found
    split at found
    · next present =>
      obtain ⟨a, b, different, same, landed⟩ := mem.mp present
      obtain rfl := Option.some.inj found
      rw [same, amountOf_flatMap_wins single different]
      exact ⟨a, b, different, rfl, rfl, landed⟩
    · cases found
  · rintro ⟨a, b, different, same, rfl, landed⟩
    rw [if_pos (mem.mpr ⟨a, b, different, same, landed⟩), same,
      amountOf_flatMap_wins single different]

theorem getD_buildWinCounts (single : SingleWinner wide.arr) {a b : Fin k} (different : b ≠ a) :
    (wide.buildWinCounts.get (wide.cols a, wide.cols b)).getD 0 = landCount wide.arr a := by
  rw [buildWinCounts_eq, HashTable.getD_get_tally, amountOf_flatMap_wins single different]

end Wide

/-! ## The design of the comparisons -/

namespace BradleyTerry

variable {wide : Wide k}

/-- At least two senders compete, a trigger has at most one winner, and every sender has
landed a trigger. -/
structure Contested (wide : Wide k) : Prop where
  several : 2 ≤ k
  single : SingleWinner wide.arr
  allLanded : ∀ a, 0 < landCount wide.arr a

/-- The items are the senders. -/
theorem items_eq (contested : Contested wide) :
    items wide.buildWinCounts = Finset.univ.image wide.cols := by
  ext name
  simp only [items, List.mem_toFinset, List.mem_flatMap, List.mem_cons, List.not_mem_nil, or_false,
    Finset.mem_image, Finset.mem_univ, true_and]
  constructor
  · rintro ⟨⟨pair, count⟩, mem, isName⟩
    obtain ⟨a, b, _, rfl, _⟩ :=
      (Wide.buildWinCounts_get_eq_some contested.single).mp (HashTable.mem_entries.mp mem)
    obtain rfl | rfl := isName
    · exact ⟨a, rfl⟩
    · exact ⟨b, rfl⟩
  · rintro ⟨a, rfl⟩
    obtain ⟨b, different⟩ : ∃ b, b ≠ a := by
      have : Nontrivial (Fin k) := Fin.nontrivial_iff_two_le.mpr contested.several
      exact exists_ne a
    refine ⟨⟨(wide.cols a, wide.cols b), landCount wide.arr a⟩, ?_, Or.inl rfl⟩
    exact HashTable.mem_entries.mpr ((Wide.buildWinCounts_get_eq_some contested.single).mpr
      ⟨a, b, different, rfl, rfl, contested.allLanded a⟩)

/-- A sender has its landed triggers as wins against every other sender. -/
theorem w_eq (single : SingleWinner wide.arr) (a : Fin k) :
    ((w wide.buildWinCounts).get (wide.cols a)).getD 0 = (k - 1) * landCount wide.arr a := by
  let others := (List.finRange k).filter fun b => b ≠ a
  let keys := others.map fun b => (wide.cols a, wide.cols b)
  let own := wide.buildWinCounts.entries.filter fun entry => entry.1.1 = wide.cols a
  have nodup : keys.Nodup := by
    apply ((List.nodup_finRange k).filter _).map
    exact fun _ _ same => wide.distinct (Prod.mk.inj same).2
  have covered : ∀ entry ∈ own, entry.1 ∈ keys := by
    rintro ⟨pair, count⟩ mem
    obtain ⟨inEntries, isOwn⟩ := List.mem_filter.mp mem
    obtain ⟨a', b, different, rfl, _⟩ :=
      (Wide.buildWinCounts_get_eq_some single).mp (HashTable.mem_entries.mp inEntries)
    obtain rfl := wide.distinct (of_decide_eq_true isOwn)
    exact List.mem_map.mpr ⟨b, List.mem_filter.mpr ⟨List.mem_finRange b, decide_eq_true different⟩,
      rfl⟩
  have each : ∀ b ∈ others, amountOf (fun entry => entry.1) (fun entry => entry.2) own
      (wide.cols a, wide.cols b) = landCount wide.arr a := by
    intro b mem
    rw [amountOf_filter, HashTable.amountOf_entries]
    · exact Wide.getD_buildWinCounts single (of_decide_eq_true (List.mem_filter.mp mem).2)
    · intro entry _ same
      rw [same, decide_eq_true rfl]
  have length : others.length = k - 1 := by
    have erased : others = (List.finRange k).erase a := by
      rw [(List.nodup_finRange k).erase_eq_filter]
      exact List.filter_congr fun b _ => by by_cases same : b = a <;> simp [same]
    rw [erased, List.length_erase_of_mem (List.mem_finRange a), List.length_finRange]
  have amounts : keys.map (amountOf (fun entry => entry.1) (fun entry => entry.2) own) =
      others.map fun _ => landCount wide.arr a := by
    rw [List.map_map]
    exact List.map_congr_left each
  rw [w, HashTable.getD_get_tally]
  change (own.map fun entry => entry.2).sum = _
  rw [← sum_amountOf nodup covered, amounts, List.map_const', List.sum_replicate, smul_eq_mul,
    length]

/-- An entry is a number of meetings for either order of its pair. -/
theorem amountOf_meetings (entries : List ((_ : String × String) × Nat)) (i j : String) :
    amountOf Prod.fst Prod.snd (entries.flatMap fun entry =>
        [((entry.1.1, entry.1.2), entry.2), ((entry.1.2, entry.1.1), entry.2)]) (i, j) =
      amountOf (fun entry => entry.1) (fun entry => entry.2) entries (i, j) +
        amountOf (fun entry => entry.1) (fun entry => entry.2) entries (j, i) := by
  induction entries with
  | nil => rfl
  | cons entry entries ih =>
    have swapped : (entry.1.2, entry.1.1) = (i, j) ↔ entry.1 = (j, i) := by
      rw [Prod.ext_iff, Prod.ext_iff, and_comm]
    rw [List.flatMap_cons, amountOf_append, ih, amountOf_cons, amountOf_cons, amountOf_cons,
      amountOf_cons, amountOf_nil]
    simp only [swapped, Prod.mk.eta]
    omega

/-- Two senders met in the landed triggers of either. -/
theorem M_eq (single : SingleWinner wide.arr) {a b : Fin k} (different : b ≠ a) :
    ((M wide.buildWinCounts).get (wide.cols a, wide.cols b)).getD 0 =
      landCount wide.arr a + landCount wide.arr b := by
  rw [M, HashTable.getD_get_tally, amountOf_meetings, HashTable.amountOf_entries,
    HashTable.amountOf_entries, Wide.getD_buildWinCounts single different,
    Wide.getD_buildWinCounts single different.symm]

section Fit

variable {K : Type*} [Field K] [LinearOrder K] [IsStrictOrderedRing K]

/-- **In a win matrix a winner takes all.** -/
theorem winnerTakesAll (contested : Contested wide) :
    PairedComparisons.WinnerTakesAll (items wide.buildWinCounts)
      (fun i => (wide.landCounts i : K))
      (fun i => (((w wide.buildWinCounts).get i).getD 0 : Nat))
      (fun i j => (((M wide.buildWinCounts).get (i, j)).getD 0 : Nat)) := by
  rw [items_eq contested]
  have card : (Finset.univ.image wide.cols).card = k := by
    rw [Finset.card_image_of_injective _ wide.distinct, Finset.card_univ, Fintype.card_fin]
  refine ⟨contested.several.trans_eq card.symm, ?_, ?_, ?_⟩
  · intro i mem
    obtain ⟨a, _, rfl⟩ := Finset.mem_image.mp mem
    rw [wide.landCounts_cols]
    exact_mod_cast contested.allLanded a
  · intro i mem
    obtain ⟨a, _, rfl⟩ := Finset.mem_image.mp mem
    rw [w_eq contested.single, wide.landCounts_cols, card, Nat.cast_mul]
  · intro i memI j memJ different
    obtain ⟨a, _, rfl⟩ := Finset.mem_image.mp memI
    obtain ⟨b, _, rfl⟩ := Finset.mem_image.mp memJ
    rw [M_eq contested.single fun same => different (congrArg wide.cols same),
      wide.landCounts_cols, wide.landCounts_cols, Nat.cast_add]

variable {p : String → K}

/-- What holds of all senders holds of all items. -/
theorem forall_items (contested : Contested wide) {holds : String → Prop} :
    (∀ i ∈ items wide.buildWinCounts, holds i) ↔ ∀ a, holds (wide.cols a) := by
  rw [items_eq contested]
  simp

/-- The positive abilities that the update leaves as they are. -/
theorem update_eq_iff (contested : Contested wide) :
    ((∀ a, 0 < p (wide.cols a)) ∧
      ∀ a, update wide.buildWinCounts p (wide.cols a) = p (wide.cols a)) ↔
    ∃ factor > 0, ∀ a, p (wide.cols a) = factor * (landCount wide.arr a : K) := by
  have design := @winnerTakesAll _ _ K _ _ _ contested
  have all := @forall_items _ _ contested
  constructor
  · rintro ⟨positive, fixed⟩
    obtain ⟨factor, posFactor, proportional⟩ := PairedComparisons.proportional_of_scaled design
      (all.mpr positive) (all.mpr fun a => ((one_mul _).trans (fixed a)).symm)
    refine ⟨factor, posFactor, ?_⟩
    intro a
    rw [← wide.landCounts_cols]
    exact all.mp proportional a
  · rintro ⟨factor, posFactor, proportional⟩
    refine ⟨?_, all.mp (PairedComparisons.update_of_proportional design posFactor (all.mpr ?_))⟩
    · intro a
      rw [proportional]
      exact mul_pos posFactor (by exact_mod_cast contested.allLanded a)
    · intro a
      rw [proportional, wide.landCounts_cols]

/-- A round of the fit divides the positive abilities that the update gives. -/
theorem step_eq (contested : Contested wide) (geometricMean : (String → K) → K)
    (positive : ∀ a, 0 < p (wide.cols a)) :
    step wide.buildWinCounts geometricMean p = fun i =>
      update wide.buildWinCounts p i / geometricMean (update wide.buildWinCounts p) := by
  have design := @winnerTakesAll _ _ K _ _ _ contested
  have all := @forall_items _ _ contested
  exact if_pos fun i mem => design.update_pos (all.mpr positive) mem

/-- Positive abilities that a round leaves as they are have the order of the landed
triggers. -/
theorem lt_iff_of_step_eq (contested : Contested wide) {geometricMean : (String → K) → K}
    (positive : ∀ a, 0 < p (wide.cols a))
    (settled : ∀ a, step wide.buildWinCounts geometricMean p (wide.cols a) = p (wide.cols a))
    (a b : Fin k) :
    p (wide.cols a) < p (wide.cols b) ↔ landCount wide.arr a < landCount wide.arr b := by
  have design := @winnerTakesAll _ _ K _ _ _ contested
  have all := @forall_items _ _ contested
  rw [step_eq contested geometricMean positive] at settled
  obtain ⟨factor, posFactor, proportional⟩ := PairedComparisons.proportional_of_scaled design
    (all.mpr positive) (all.mpr fun a => (settled a).symm.trans (div_eq_inv_mul _ _))
  have proportional' := all.mp proportional
  rw [proportional' a, proportional' b, wide.landCounts_cols, wide.landCounts_cols,
    mul_lt_mul_iff_right₀ posFactor, Nat.cast_lt]

/-- **The ranking adds nothing to the landed triggers.** Every pairwise win count of a sender
is the number of its landed triggers, the update leaves the positive multiples of these
numbers as they are and no other positive abilities, and abilities that the fit settles at
have their order. -/
theorem bradleyTerry_iff_landCount (wide : Wide k) (several : 2 ≤ k)
    (single : SingleWinner wide.arr) (allLanded : ∀ a, 0 < landCount wide.arr a) :
    (∀ a b, b ≠ a →
      wide.buildWinCounts.get (wide.cols a, wide.cols b) = some (landCount wide.arr a)) ∧
    (∀ p : String → K,
      ((∀ a, 0 < p (wide.cols a)) ∧
        ∀ a, update wide.buildWinCounts p (wide.cols a) = p (wide.cols a)) ↔
      ∃ factor > 0, ∀ a, p (wide.cols a) = factor * (landCount wide.arr a : K)) ∧
    ∀ (geometricMean : (String → K) → K) (p : String → K), (∀ a, 0 < p (wide.cols a)) →
      (∀ a, step wide.buildWinCounts geometricMean p (wide.cols a) = p (wide.cols a)) →
      ∀ a b, p (wide.cols a) < p (wide.cols b) ↔ landCount wide.arr a < landCount wide.arr b := by
  refine ⟨?_, ?_, ?_⟩
  · intro a b different
    exact (Wide.buildWinCounts_get_eq_some single).mpr ⟨a, b, different, rfl, rfl, allLanded a⟩
  · exact fun _ => update_eq_iff ⟨several, single, allLanded⟩
  · exact fun _ _ => lt_iff_of_step_eq ⟨several, single, allLanded⟩

def sampleAbility (name : String) : Rat := if name = "blockrazor" then 4 else 2

theorem bradleyTerry_iff_landCount_sample :
    sampleWide.buildWinCounts.get ("blockrazor", "nozomi-fra") = some 2 ∧
      (∃ factor > 0, ∀ a,
        sampleAbility (sampleWide.cols a) = factor * (landCount sampleWide.arr a : Rat)) ∧
      sampleAbility "nozomi-fra" < sampleAbility "blockrazor" := by
  have ⟨counts, fixed, order⟩ := @bradleyTerry_iff_landCount 2 Rat _ _ _ sampleWide (by decide)
    (by decide) (by decide)
  have positive : ∀ a, 0 < sampleAbility (sampleWide.cols a) := by decide +kernel
  exact ⟨counts 0 1 (by decide), (fixed sampleAbility).mp ⟨positive, by decide +kernel⟩,
    (order (fun _ => 1) sampleAbility positive (by decide +kernel) 1 0).mpr (by decide)⟩

/-- The abilities stay positive in every round. -/
theorem loop_pos (contested : Contested wide) {geometricMean : (String → K) → K}
    (meanPos : ∀ p, (∀ a, 0 < p (wide.cols a)) → 0 < geometricMean p)
    (close : (String → K) → (String → K) → Bool) (maxIter : Nat) {p : String → K}
    (positive : ∀ a, 0 < p (wide.cols a)) (a : Fin k) :
    0 < loop wide.buildWinCounts geometricMean close maxIter p (wide.cols a) := by
  induction maxIter generalizing p with
  | zero => exact positive a
  | succ maxIter ih =>
    have design := @winnerTakesAll _ _ K _ _ _ contested
    have all := @forall_items _ _ contested
    have updated : ∀ a, 0 < update wide.buildWinCounts p (wide.cols a) :=
      all.mp fun i mem => design.update_pos (all.mpr positive) mem
    have stepped : ∀ a, 0 < step wide.buildWinCounts geometricMean p (wide.cols a) := by
      rw [step_eq contested geometricMean positive]
      exact fun a => div_pos (updated a) (meanPos _ updated)
    unfold loop
    dsimp only
    split
    · exact stepped a
    · exact ih stepped

/-- **A fit that a further round leaves as it is ranks the senders by landed triggers.** -/
theorem bradleyTerry_lt_iff (contested : Contested wide) {geometricMean : (String → K) → K}
    (meanPos : ∀ p, (∀ a, 0 < p (wide.cols a)) → 0 < geometricMean p)
    {close : (String → K) → (String → K) → Bool} {maxIter : Nat}
    (settled : ∀ a, step wide.buildWinCounts geometricMean
      (bradleyTerry wide.buildWinCounts geometricMean close maxIter) (wide.cols a) =
        bradleyTerry wide.buildWinCounts geometricMean close maxIter (wide.cols a))
    (a b : Fin k) :
    bradleyTerry wide.buildWinCounts geometricMean close maxIter (wide.cols a) <
        bradleyTerry wide.buildWinCounts geometricMean close maxIter (wide.cols b) ↔
      landCount wide.arr a < landCount wide.arr b :=
  lt_iff_of_step_eq contested
    (loop_pos contested meanPos close maxIter fun _ => one_pos) settled a b

/-- **On a loaded run with at least two senders, all of which landed a trigger, a fit that a
further round leaves as it is ranks the senders by landed triggers.** -/
theorem bradleyTerry_loadWide_lt_iff {df : EnrichedFrame}
    (several : 2 ≤ (Frame.senders df.long.rows).card)
    (allLanded : ∀ a, 0 < landCount (loadWide df).arr a) {geometricMean : (String → K) → K}
    (meanPos : ∀ p, (∀ a, 0 < p ((loadWide df).cols a)) → 0 < geometricMean p)
    {close : (String → K) → (String → K) → Bool} {maxIter : Nat} :
    let fit := bradleyTerry (loadWide df).buildWinCounts geometricMean close maxIter
    (∀ a, step (loadWide df).buildWinCounts geometricMean fit ((loadWide df).cols a) =
      fit ((loadWide df).cols a)) →
    ∀ a b, fit ((loadWide df).cols a) < fit ((loadWide df).cols b) ↔
      landCount (loadWide df).arr a < landCount (loadWide df).arr b :=
  fun settled => bradleyTerry_lt_iff ⟨several, loadWide_singleWinner df, allLanded⟩ meanPos settled

end Fit

end BradleyTerry

end SenderAnalysis.FanoutAnalysis

import Mathlib.Algebra.BigOperators.Group.Finset.Piecewise
import Mathlib.Algebra.Ring.Nat
import Mathlib.Algebra.BigOperators.Group.List.Basic
import Mathlib.Algebra.Group.Action.Defs
import Std.Data.ExtTreeMap
import SenderAnalysis.Foundations.HashTables

/-!
# Tallies

A tally adds up amounts by key. What it holds for a key is what the items of that key
amount to (`tally_getElem?`), and it holds the keys of the items and no others
(`mem_tally`); of a tally in a hash table both are said by `HashTable.get_tally`. When
every item has its key among a number of distinct keys, the amounts of these keys sum to
the amount of all items (`sum_amountOf`).

Items are also counted by what they satisfy. A count splits along a second property
(`countP_split`), two counts of which one implies the other are equal when both count the
same items (`countP_eq_iff`), and a count of the items with certain keys is a sum over the
keys (`countP_mem_eq_sum`).
-/

set_option autoImplicit false

namespace SenderAnalysis

open Std

variable {ι κ : Type*}

/-! ## Counts -/

section Counts

variable {p q : ι → Bool} {items : List ι}

/-- A count is split by a second property. -/
theorem countP_split (p q : ι → Bool) (items : List ι) :
    items.countP p =
      items.countP (fun item => p item && q item) + items.countP fun item => p item && !q item := by
  induction items with
  | nil => rfl
  | cons item items ih =>
    rw [List.countP_cons, List.countP_cons, List.countP_cons, ih]
    cases p item <;> cases q item <;> simp <;> omega

/-- What implies a property is met as often as the property when it is met by the same
items. -/
theorem countP_eq_iff (implies : ∀ item ∈ items, p item → q item) :
    items.countP p = items.countP q ↔ ∀ item ∈ items, q item → p item := by
  have split := countP_split q p items
  have both : items.countP (fun item => q item && p item) = items.countP p := by
    apply List.countP_congr
    intro item mem
    rw [Bool.and_eq_true]
    exact ⟨And.right, fun holds => ⟨implies item mem holds, holds⟩⟩
  rw [both] at split
  constructor
  · intro same item mem holds
    have none' : items.countP (fun item => q item && !p item) = 0 := by omega
    have here := List.countP_eq_zero.mp none' item mem
    simpa [holds] using here
  · intro converse
    have none' : items.countP (fun item => q item && !p item) = 0 := by
      apply List.countP_eq_zero.mpr
      intro item mem
      by_cases holds : q item <;> simp [holds, converse item mem]
    omega

/-- The items with their key in a set are counted key by key. -/
theorem countP_mem_eq_sum [DecidableEq κ] (keyOf : ι → κ) (p : ι → Bool) (keys : Finset κ)
    (items : List ι) :
    items.countP (fun item => p item && decide (keyOf item ∈ keys)) =
      ∑ key ∈ keys, items.countP fun item => p item && decide (keyOf item = key) := by
  induction items with
  | nil => simp
  | cons item rest ih =>
    simp only [List.countP_cons, Finset.sum_add_distrib, ih]
    cases p item <;> simp

end Counts

/-! ## Amounts by key -/

variable [DecidableEq κ]

/-- What the items of a key amount to. -/
def amountOf (keyOf : ι → κ) (amount : ι → Nat) (items : List ι) (key : κ) : Nat :=
  ((items.filter fun item => keyOf item = key).map amount).sum

section AmountOf

variable {keyOf : ι → κ} {amount : ι → Nat} {items : List ι}

@[simp] theorem amountOf_nil (key : κ) : amountOf keyOf amount [] key = 0 := rfl

theorem amountOf_cons (item : ι) (items : List ι) (key : κ) :
    amountOf keyOf amount (item :: items) key =
      (if keyOf item = key then amount item else 0) + amountOf keyOf amount items key := by
  unfold amountOf
  by_cases same : keyOf item = key <;> simp [same]

theorem amountOf_append (first second : List ι) (key : κ) :
    amountOf keyOf amount (first ++ second) key =
      amountOf keyOf amount first key + amountOf keyOf amount second key := by
  unfold amountOf
  rw [List.filter_append, List.map_append, List.sum_append]

theorem amountOf_eq_zero {key : κ} (absent : key ∉ items.map keyOf) :
    amountOf keyOf amount items key = 0 := by
  have none' : items.filter (fun item => keyOf item = key) = [] := by
    apply List.filter_eq_nil_iff.mpr
    intro item mem equal
    exact absent (List.mem_map.mpr ⟨item, mem, of_decide_eq_true equal⟩)
  rw [amountOf, none', List.map_nil, List.sum_nil]

/-- Items of other keys do not matter. -/
theorem amountOf_filter {p : ι → Bool} {key : κ}
    (ofKey : ∀ item ∈ items, keyOf item = key → p item) :
    amountOf keyOf amount (items.filter p) key = amountOf keyOf amount items key := by
  rw [amountOf, amountOf, List.filter_filter]
  congr 2
  apply List.filter_congr
  intro item mem
  by_cases same : keyOf item = key
  · rw [ofKey item mem same, Bool.and_true]
  · rw [decide_eq_false same, Bool.false_and]

/-- Counting items instead of adding amounts. -/
theorem amountOf_one (key : κ) :
    amountOf keyOf (fun _ => 1) items key = items.countP fun item => keyOf item = key := by
  rw [amountOf, List.map_const', List.sum_replicate, List.countP_eq_length_filter, smul_eq_mul,
    Nat.mul_one]

/-- A single amount, spread over distinct keys. -/
theorem sum_ite_key {keys : List κ} (nodup : keys.Nodup) (here : κ) (count : Nat) :
    (keys.map fun key => if here = key then count else 0).sum =
      if here ∈ keys then count else 0 := by
  induction keys with
  | nil => rfl
  | cons key keys ih =>
    obtain ⟨fresh, nodup⟩ := List.nodup_cons.mp nodup
    rw [List.map_cons, List.sum_cons, ih nodup]
    by_cases same : here = key
    · rw [if_pos same, if_neg (fun later => fresh (same ▸ later)),
        if_pos (List.mem_cons.mpr (Or.inl same)), Nat.add_zero]
    · rw [if_neg same, Nat.zero_add]
      simp [same]

/-- **The amounts of distinct keys sum to the amount of all items**, when the keys are
those of the items, and maybe more. -/
theorem sum_amountOf {keys : List κ} (nodup : keys.Nodup)
    (covered : ∀ item ∈ items, keyOf item ∈ keys) :
    (keys.map (amountOf keyOf amount items)).sum = (items.map amount).sum := by
  induction items with
  | nil =>
    rw [List.map_nil, List.sum_nil]
    exact List.sum_eq_zero fun part mem => by
      obtain ⟨key, _, rfl⟩ := List.mem_map.mp mem
      rfl
  | cons item items ih =>
    have split : amountOf keyOf amount (item :: items) = fun key =>
        (if keyOf item = key then amount item else 0) + amountOf keyOf amount items key :=
      funext (amountOf_cons item items)
    rw [split, List.sum_map_add, sum_ite_key nodup, if_pos (covered item List.mem_cons_self),
      ih fun other later => covered other (List.mem_cons_of_mem item later), List.map_cons,
      List.sum_cons]

end AmountOf

/-! ## Tallies in a hash table -/

namespace HashTable

variable {κ : Type} [DecidableEq κ]

/-- Add to the count of a key, which starts at zero. -/
def addTo (table : HashTable κ Nat) (key : κ) (count : Nat) : HashTable κ Nat :=
  table.insert key ((table.get key).getD 0 + count)

/-- Add up the amounts of the items by key. -/
def tally (keyOf : ι → κ) (amount : ι → Nat) (items : List ι) : HashTable κ Nat :=
  items.foldl (fun table item => addTo table (keyOf item) (amount item)) empty

/-- A tally holds the keys of its items, and for each what its items amount to. -/
theorem get_tally (keyOf : ι → κ) (amount : ι → Nat) (items : List ι) (key : κ) :
    (tally keyOf amount items).get key =
      if key ∈ items.map keyOf then some (amountOf keyOf amount items key) else none := by
  suffices general : ∀ table : HashTable κ Nat,
      (items.foldl (fun table item => addTo table (keyOf item) (amount item)) table).get key =
        if key ∈ items.map keyOf then
          some ((table.get key).getD 0 + amountOf keyOf amount items key)
        else table.get key by
    rw [tally, general, get_empty, Option.getD_none, Nat.zero_add]
  induction items with
  | nil => exact fun _ => rfl
  | cons item items ih =>
    intro table
    rw [List.foldl_cons, ih, addTo, get_insert, amountOf_cons, List.map_cons]
    by_cases same : key = keyOf item
    · subst same
      rw [if_pos rfl, if_pos rfl, if_pos List.mem_cons_self, Option.getD_some, Nat.add_assoc]
      by_cases later : keyOf item ∈ items.map keyOf
      · rw [if_pos later]
      · rw [if_neg later, amountOf_eq_zero later, Nat.add_zero]
    · rw [if_neg same, if_neg (Ne.symm same), Nat.zero_add]
      simp only [List.mem_cons, same, false_or]

theorem getD_get_tally (keyOf : ι → κ) (amount : ι → Nat) (items : List ι) (key : κ) :
    ((tally keyOf amount items).get key).getD 0 = amountOf keyOf amount items key := by
  rw [get_tally]
  split
  · rfl
  · next absent => exact (amountOf_eq_zero absent).symm

/-- The entries of a table amount by key to what is looked up. -/
theorem amountOf_entries (table : HashTable κ Nat) (key : κ) :
    amountOf (fun entry => entry.1) (fun entry => entry.2) table.entries key =
      (table.get key).getD 0 := by
  obtain ⟨entries, distinct⟩ := table
  change _ = (List.dlookup key entries).getD 0
  induction entries with
  | nil => rfl
  | cons head rest ih =>
    obtain ⟨first, value⟩ := head
    obtain ⟨fresh, distinct'⟩ := List.nodupKeys_cons.mp distinct
    have later := ih distinct'
    rw [amountOf_cons]
    by_cases same : first = key
    · subst same
      rw [List.dlookup_eq_none.mpr fresh] at later
      rw [later]
      simp
    · have past : List.dlookup key (⟨first, value⟩ :: rest) = List.dlookup key rest :=
        List.dlookup_cons_ne rest ⟨first, value⟩ (Ne.symm same)
      rw [past, ← later, if_neg same, Nat.zero_add]

end HashTable

/-! ## Tallies in a map -/

variable [Ord κ] [TransOrd κ] [LawfulEqOrd κ]

/-- Add to the count of a key, which starts at zero. -/
def addTo (map : ExtTreeMap κ Nat) (key : κ) (count : Nat) : ExtTreeMap κ Nat :=
  map.insert key (map[key]?.getD 0 + count)

/-- Add up the amounts of the items by key. -/
def tally (keyOf : ι → κ) (amount : ι → Nat) (items : List ι) : ExtTreeMap κ Nat :=
  items.foldl (fun map item => addTo map (keyOf item) (amount item)) ∅

theorem addTo_getElem? (map : ExtTreeMap κ Nat) (here : κ) (count : Nat) (key : κ) :
    (addTo map here count)[key]?.getD 0 =
      map[key]?.getD 0 + if here = key then count else 0 := by
  unfold addTo
  rw [ExtTreeMap.getElem?_insert]
  by_cases same : here = key
  · subst same
    simp
  · rw [if_neg same, if_neg (fun equal => same (Std.compare_eq_iff_eq.mp equal)), Nat.add_zero]

/-- A tally holds for every key what its items amount to. -/
theorem tally_getElem? (keyOf : ι → κ) (amount : ι → Nat) (items : List ι) (key : κ) :
    (tally keyOf amount items)[key]?.getD 0 = amountOf keyOf amount items key := by
  suffices general : ∀ map : ExtTreeMap κ Nat,
      ((items.foldl (fun map item => addTo map (keyOf item) (amount item)) map)[key]?).getD 0 =
        map[key]?.getD 0 + amountOf keyOf amount items key by
    rw [tally, general, ExtTreeMap.getElem?_empty, Option.getD_none, Nat.zero_add]
  induction items with
  | nil => exact fun _ => rfl
  | cons item items ih =>
    intro map
    rw [List.foldl_cons, ih, addTo_getElem?, amountOf_cons, Nat.add_assoc]

omit [DecidableEq κ] in
/-- A tally holds the keys of its items. -/
theorem mem_tally {keyOf : ι → κ} {amount : ι → Nat} {items : List ι} {key : κ} :
    key ∈ tally keyOf amount items ↔ ∃ item ∈ items, keyOf item = key := by
  suffices general : ∀ map : ExtTreeMap κ Nat,
      key ∈ items.foldl (fun map item => addTo map (keyOf item) (amount item)) map ↔
        key ∈ map ∨ ∃ item ∈ items, keyOf item = key by
    rw [tally, general]
    simp
  induction items with
  | nil => simp
  | cons item items ih =>
    intro map
    rw [List.foldl_cons, ih, addTo, ExtTreeMap.mem_insert, Std.compare_eq_iff_eq]
    simp only [List.mem_cons, exists_eq_or_imp]
    exact ⟨fun mem => by tauto, fun mem => by tauto⟩

end SenderAnalysis

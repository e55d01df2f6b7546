import Mathlib.Algebra.Ring.Nat
import Std.Data.ExtTreeMap
import SenderAnalysis.Foundations.Runs

/-!
# Ordered maps: first and last entries, and visiting every key

Facts about the ordered maps of the standard library that a component
keyed by slot or by index relies on.

* The first entry of a map is the entry with the least key, and the last key is
  the greatest (`firstEntry_eq_some_iff`, `isLE_lastKey`).
* A loop that visits distinct keys and updates the value at each of them acts on
  every visited key once and on no other key (`runAll_updateAt_getElem?`).
* The outputs of such a loop that belong to one key are the outputs of the
  visit to that key (`runAll_updateAt_filterMap`).
* When every visit moves weight from the value at a key to the outputs, the loop
  moves it from the total of the map (`runAll_updateAt_total`).
-/

set_option autoImplicit false

namespace SenderAnalysis

open Std

namespace OrderedMap

variable {κ ν ω τ : Type*} [Ord κ] [TransOrd κ] [LawfulEqOrd κ]

/-! ## The ends of a map -/

/-- The entry with the least key. -/
def firstEntry (map : ExtTreeMap κ ν) : Option (κ × ν) := map.toList.head?

/-- The greatest key. -/
def lastKey (map : ExtTreeMap κ ν) : Option κ := map.keys.getLast?

omit [LawfulEqOrd κ] in
theorem firstEntry_eq_none_iff {map : ExtTreeMap κ ν} :
    firstEntry map = none ↔ map = ∅ := by
  rw [firstEntry, List.head?_eq_none_iff, ExtTreeMap.toList_eq_nil_iff]

omit [LawfulEqOrd κ] in
theorem firstEntry_mem_toList {map : ExtTreeMap κ ν} {key : κ} {value : ν}
    (first : firstEntry map = some (key, value)) : (key, value) ∈ map.toList :=
  List.mem_of_mem_head? first

theorem getElem?_of_firstEntry {map : ExtTreeMap κ ν} {key : κ} {value : ν}
    (first : firstEntry map = some (key, value)) : map[key]? = some value :=
  ExtTreeMap.mem_toList_iff_getElem?_eq_some.mp (firstEntry_mem_toList first)

/-- What holds of everything in a map holds of the list of its entries. -/
theorem forall_getElem?_iff {map : ExtTreeMap κ ν} {holds : κ → ν → Prop} :
    (∀ key value, map[key]? = some value → holds key value) ↔
      ∀ entry ∈ map.toList, holds entry.1 entry.2 :=
  ⟨fun all _ listed => all _ _ (ExtTreeMap.mem_toList_iff_getElem?_eq_some.mp listed),
    fun all _ _ present => all (_, _) (ExtTreeMap.mem_toList_iff_getElem?_eq_some.mpr present)⟩

theorem exists_getElem?_iff {map : ExtTreeMap κ ν} {holds : κ → ν → Prop} :
    (∃ key value, map[key]? = some value ∧ holds key value) ↔
      ∃ entry ∈ map.toList, holds entry.1 entry.2 := by
  constructor
  · rintro ⟨key, value, present, here⟩
    exact ⟨_, ExtTreeMap.mem_toList_iff_getElem?_eq_some.mpr present, here⟩
  · rintro ⟨⟨key, value⟩, listed, here⟩
    exact ⟨key, value, ExtTreeMap.mem_toList_iff_getElem?_eq_some.mp listed, here⟩

/-- No key comes before the first. -/
theorem firstEntry_isLE {map : ExtTreeMap κ ν} {key other : κ} {value : ν}
    (first : firstEntry map = some (key, value)) (member : other ∈ map) :
    (compare key other).isLE := by
  obtain ⟨found, present⟩ := Option.isSome_iff_exists.mp
    (ExtTreeMap.mem_iff_isSome_getElem?.mp member)
  have listed : (other, found) ∈ map.toList :=
    ExtTreeMap.mem_toList_iff_getElem?_eq_some.mpr present
  have ordered := map.ordered_keys_toList
  rw [firstEntry] at first
  cases entries : map.toList with
  | nil => simp [entries] at listed
  | cons head tail =>
    rw [entries] at first listed ordered
    have same : head = (key, value) := by simpa using first
    subst same
    rcases List.mem_cons.mp listed with equal | later
    · cases equal
      simp
    · have before := (List.pairwise_cons.mp ordered).1 _ later
      simp [before]

/-- The first entry is the entry whose key is below all others. -/
theorem firstEntry_eq_some_iff {map : ExtTreeMap κ ν} {key : κ} {value : ν} :
    firstEntry map = some (key, value) ↔
      map[key]? = some value ∧ ∀ other ∈ map, (compare key other).isLE := by
  constructor
  · intro first
    exact ⟨getElem?_of_firstEntry first, fun other member => firstEntry_isLE first member⟩
  · rintro ⟨present, least⟩
    cases found : firstEntry map with
    | none =>
      rw [firstEntry_eq_none_iff] at found
      simp [found] at present
    | some entry =>
      obtain ⟨least', value'⟩ := entry
      have member : key ∈ map := ExtTreeMap.mem_iff_isSome_getElem?.mpr (by simp [present])
      have member' : least' ∈ map :=
        ExtTreeMap.mem_iff_isSome_getElem?.mpr (by simp [getElem?_of_firstEntry found])
      have same : compare least' key = .eq :=
        OrientedCmp.isLE_antisymm (firstEntry_isLE found member) (least least' member')
      have equal : least' = key := LawfulEqOrd.eq_of_compare same
      subst equal
      rw [getElem?_of_firstEntry found] at present
      simpa using present

omit [LawfulEqOrd κ] in
theorem firstEntry_of_ne_empty {map : ExtTreeMap κ ν} (nonempty : map ≠ ∅) :
    ∃ key value, firstEntry map = some (key, value) := by
  cases found : firstEntry map with
  | none => exact absurd (firstEntry_eq_none_iff.mp found) nonempty
  | some entry => exact ⟨entry.1, entry.2, rfl⟩

omit [LawfulEqOrd κ] in
theorem lastKey_eq_none_iff {map : ExtTreeMap κ ν} : lastKey map = none ↔ map = ∅ := by
  rw [lastKey, List.getLast?_eq_none_iff, ExtTreeMap.keys_eq_nil_iff]

/-- No key comes after the last. -/
theorem isLE_lastKey {map : ExtTreeMap κ ν} {last other : κ} (found : lastKey map = some last)
    (member : other ∈ map) : (compare other last).isLE := by
  have listed : other ∈ map.keys := ExtTreeMap.mem_keys.mpr member
  have ordered : map.keys.Pairwise (fun a b => compare a b = .lt) := ExtTreeMap.ordered_keys
  rw [lastKey, List.getLast?_eq_some_iff] at found
  obtain ⟨front, split⟩ := found
  rw [split] at listed ordered
  rcases List.mem_append.mp listed with before | equal
  · have earlier := (List.pairwise_append.mp ordered).2.2 other before last (by simp)
    simp [earlier]
  · have same : other = last := by simpa using equal
    subst same
    simp

/-! ## Dropping the first keys -/

/-- Pop the first entry as long as its key is below the cutoff. -/
def popBelow {ν : Type*} (map : ExtTreeMap Nat ν) (cutoff : Nat) : ExtTreeMap Nat ν :=
  (map.keys.takeWhile (· < cutoff)).foldl ExtTreeMap.erase map

theorem getElem?_foldl_erase {ν : Type*} (keys : List Nat) (map : ExtTreeMap Nat ν) (key : Nat) :
    (keys.foldl ExtTreeMap.erase map)[key]? = if key ∈ keys then none else map[key]? := by
  induction keys generalizing map with
  | nil => simp
  | cons head rest ih =>
    rw [List.foldl_cons, ih, ExtTreeMap.getElem?_erase]
    by_cases later : key ∈ rest
    · simp [later]
    · by_cases here : head = key
      · simp [here]
      · have apart : ¬ key = head := fun same => here same.symm
        simp [later, here, apart]

/-- Of a sorted list, the elements below a bound are its beginning. -/
theorem mem_takeWhile_lt {keys : List Nat} (sorted : keys.Pairwise (· < ·)) {cutoff key : Nat} :
    key ∈ keys.takeWhile (· < cutoff) ↔ key ∈ keys ∧ key < cutoff := by
  induction keys with
  | nil => simp
  | cons head rest ih =>
    have ⟨least, rest'⟩ := List.pairwise_cons.mp sorted
    by_cases low : head < cutoff
    · rw [List.takeWhile_cons_of_pos (by simpa using low), List.mem_cons, List.mem_cons, ih rest']
      constructor
      · rintro (rfl | ⟨member, below⟩)
        · exact ⟨.inl rfl, low⟩
        · exact ⟨.inr member, below⟩
      · rintro ⟨rfl | member, below⟩
        · exact .inl rfl
        · exact .inr ⟨member, below⟩
    · rw [List.takeWhile_cons_of_neg (by simpa using low)]
      constructor
      · intro none
        cases none
      · rintro ⟨member, below⟩
        rcases List.mem_cons.mp member with rfl | later
        · exact absurd below low
        · have above := least key later
          omega

/-- The keys of a map come in their order. -/
theorem sorted_keys {ν : Type*} {map : ExtTreeMap Nat ν} : map.keys.Pairwise (· < ·) := by
  have ordered : map.keys.Pairwise (fun a b => compare a b = .lt) := ExtTreeMap.ordered_keys
  exact ordered.imp fun before => Nat.compare_eq_lt.mp before

/-- **Popping below a cutoff removes the keys below it and no other.** -/
theorem getElem?_popBelow {ν : Type*} (map : ExtTreeMap Nat ν) (cutoff key : Nat) :
    (popBelow map cutoff)[key]? = if key < cutoff then none else map[key]? := by
  have sorted : map.keys.Pairwise (· < ·) := sorted_keys
  rw [popBelow, getElem?_foldl_erase]
  by_cases below : key < cutoff
  · by_cases present : key ∈ map
    · simp [mem_takeWhile_lt sorted, below, ExtTreeMap.mem_keys.mpr present]
    · have absent : map[key]? = none := ExtTreeMap.getElem?_eq_none present
      simp [absent]
  · simp [mem_takeWhile_lt sorted, below]

/-! ## Visiting keys -/

/-- Update the value at one key, and do nothing where the key is absent. -/
def updateAt (update : κ → ν → ν × List ω) (map : ExtTreeMap κ ν) (key : κ) :
    ExtTreeMap κ ν × List ω :=
  match map[key]? with
  | none => (map, [])
  | some value => (map.insert key (update key value).1, (update key value).2)

section Visits

variable (update : κ → ν → ν × List ω)

theorem updateAt_getElem?_self (map : ExtTreeMap κ ν) (key : κ) :
    (updateAt update map key).1[key]? = map[key]?.map fun value => (update key value).1 := by
  cases present : map[key]? with
  | none => simp [updateAt, present]
  | some value => simp [updateAt, present]

theorem updateAt_getElem?_of_ne (map : ExtTreeMap κ ν) {key other : κ} (different : key ≠ other) :
    (updateAt update map key).1[other]? = map[other]? := by
  cases present : map[key]? with
  | none => simp [updateAt, present]
  | some value => simp [updateAt, present, ExtTreeMap.getElem?_insert, different]

omit [LawfulEqOrd κ] in
theorem updateAt_snd (map : ExtTreeMap κ ν) (key : κ) :
    (updateAt update map key).2 =
      (map[key]?.map fun value => (update key value).2).getD [] := by
  cases present : map[key]? with
  | none => simp [updateAt, present]
  | some value => simp [updateAt, present]

/-- **A loop over distinct keys updates every visited key once and leaves the
others.** -/
theorem runAll_updateAt_getElem? [DecidableEq κ] {keys : List κ} (distinct : keys.Nodup)
    (map : ExtTreeMap κ ν) (key : κ) :
    (runAll (updateAt update) map keys).1[key]? =
      if key ∈ keys then map[key]?.map fun value => (update key value).1 else map[key]? := by
  induction keys generalizing map with
  | nil => simp
  | cons head tail ih =>
    have ⟨fresh, rest⟩ := List.nodup_cons.mp distinct
    rw [runAll_cons]
    simp only [ih rest]
    by_cases same : key = head
    · subst same
      simp [fresh, updateAt_getElem?_self]
    · rw [updateAt_getElem?_of_ne update map (Ne.symm same)]
      simp [same]

/-- **The outputs of a loop over distinct keys that belong to one key come from
the visit to that key.** Here `select` reads the outputs of one key, and a visit
to another key has none of them. -/
theorem runAll_updateAt_filterMap [DecidableEq κ] (select : ω → Option τ) {keys : List κ}
    (distinct : keys.Nodup) (map : ExtTreeMap κ ν) (key : κ)
    (elsewhere : ∀ other ∈ keys, other ≠ key → ∀ value, map[other]? = some value →
      (update other value).2.filterMap select = []) :
    (runAll (updateAt update) map keys).2.filterMap select =
      if key ∈ keys then
        (map[key]?.map fun value => (update key value).2.filterMap select).getD []
      else [] := by
  induction keys generalizing map with
  | nil => simp
  | cons head tail ih =>
    have ⟨fresh, rest⟩ := List.nodup_cons.mp distinct
    have later := ih rest (updateAt update map head).1 (by
      intro other member different value present
      have apart : head ≠ other := fun same => fresh (same ▸ member)
      rw [updateAt_getElem?_of_ne update map apart] at present
      exact elsewhere other (List.mem_cons_of_mem _ member) different value present)
    rw [runAll_cons]
    simp only [List.filterMap_append, later, updateAt_snd]
    by_cases same : key = head
    · subst same
      cases present : map[key]? <;> simp [fresh]
    · rw [updateAt_getElem?_of_ne update map (Ne.symm same)]
      have silent : ((map[head]?.map fun value => (update head value).2).getD []).filterMap
          select = [] := by
        cases present : map[head]? with
        | none => simp
        | some value =>
          simpa using elsewhere head (List.mem_cons_self ..) (Ne.symm same) value present
      simp [silent, same]

/-- **The outputs of a loop over distinct keys are those of its visits, one after the
other.** -/
theorem runAll_updateAt_outputs {keys : List κ} (distinct : keys.Nodup) (map : ExtTreeMap κ ν) :
    (runAll (updateAt update) map keys).2 =
      keys.flatMap fun key => (map[key]?.map fun value => (update key value).2).getD [] := by
  induction keys generalizing map with
  | nil => rfl
  | cons head tail ih =>
    have ⟨fresh, rest⟩ := List.nodup_cons.mp distinct
    have later : ∀ other ∈ tail,
        (((updateAt update map head).1[other]?).map fun value => (update other value).2).getD [] =
          (map[other]?.map fun value => (update other value).2).getD [] := by
      intro other member
      have apart : head ≠ other := fun same => fresh (same ▸ member)
      rw [updateAt_getElem?_of_ne update map apart]
    rw [runAll_cons, List.flatMap_cons, updateAt_snd, ih rest, List.flatMap_congr later]

theorem nodup_keys [DecidableEq κ] (map : ExtTreeMap κ ν) : map.keys.Nodup := by
  have distinct : map.keys.Pairwise (fun a b => ¬ compare a b = .eq) := ExtTreeMap.distinct_keys
  refine distinct.imp ?_
  intro first second apart same
  exact apart (compare_eq_iff_eq.mpr same)

/-- A loop over all keys of a map updates every value. -/
theorem runAll_updateAt_keys_getElem? [DecidableEq κ] (map : ExtTreeMap κ ν) (key : κ) :
    (runAll (updateAt update) map map.keys).1[key]? =
      map[key]?.map fun value => (update key value).1 := by
  rw [runAll_updateAt_getElem? update (nodup_keys map)]
  split
  · rfl
  · next absent =>
    have missing : map[key]? = none :=
      ExtTreeMap.getElem?_eq_none (fun member => absent (ExtTreeMap.mem_keys.mpr member))
    simp [missing]

/-- The outputs of a loop over all keys of a map that belong to one key. -/
theorem runAll_updateAt_keys_filterMap [DecidableEq κ] (select : ω → Option τ)
    (map : ExtTreeMap κ ν) (key : κ)
    (elsewhere : ∀ other, other ≠ key → ∀ value, map[other]? = some value →
      (update other value).2.filterMap select = []) :
    (runAll (updateAt update) map map.keys).2.filterMap select =
      (map[key]?.map fun value => (update key value).2.filterMap select).getD [] := by
  rw [runAll_updateAt_filterMap update select (nodup_keys map) map key
    (fun other _ => elsewhere other)]
  split
  · rfl
  · next absent =>
    have missing : map[key]? = none :=
      ExtTreeMap.getElem?_eq_none (fun member => absent (ExtTreeMap.mem_keys.mpr member))
    simp [missing]

end Visits

/-! ## Totals -/

section Totals

variable (weight : ν → Nat)

/-- The sum of a weight over the values. -/
def total (map : ExtTreeMap κ ν) : Nat := (map.toList.map fun entry => weight entry.2).sum

omit [LawfulEqOrd κ] in
@[simp] theorem total_empty : total weight (∅ : ExtTreeMap κ ν) = 0 := by
  have none : (∅ : ExtTreeMap κ ν).toList = [] := ExtTreeMap.toList_eq_nil_iff.mpr rfl
  rw [total, none]
  rfl

theorem nodup_toList (map : ExtTreeMap κ ν) : map.toList.Nodup := by
  have distinct : map.toList.Pairwise (fun a b => ¬ compare a.1 b.1 = .eq) :=
    ExtTreeMap.distinct_keys_toList
  refine distinct.imp ?_
  rintro first second apart rfl
  exact apart (compare_eq_iff_eq.mpr rfl)

/-- The total splits off the value of one key. -/
theorem total_eq_add_erase (map : ExtTreeMap κ ν) (key : κ) :
    total weight map = (map[key]?.map weight).getD 0 + total weight (map.erase key) := by
  cases present : map[key]? with
  | none =>
    have same : map.erase key = map := by
      refine ExtTreeMap.ext_getElem? fun other => ?_
      rw [ExtTreeMap.getElem?_erase]
      split
      · next here => rw [← compare_eq_iff_eq.mp here, present]
      · rfl
    simp [same]
  | some value =>
    have split : map.toList.Perm ((key, value) :: (map.erase key).toList) := by
      refine (List.perm_ext_iff_of_nodup (nodup_toList map) ?_).mpr fun entry => ?_
      · refine List.nodup_cons.mpr ⟨fun member => ?_, nodup_toList _⟩
        have there := ExtTreeMap.mem_toList_iff_getElem?_eq_some.mp member
        simp at there
      · obtain ⟨other, found⟩ := entry
        rw [List.mem_cons, ExtTreeMap.mem_toList_iff_getElem?_eq_some,
          ExtTreeMap.mem_toList_iff_getElem?_eq_some, ExtTreeMap.getElem?_erase]
        by_cases here : key = other
        · subst here
          simp [present, eq_comm]
        · simp [here, Ne.symm here]
    rw [total, (split.map fun entry => weight entry.2).sum_nat]
    simp [total]

theorem total_insert (map : ExtTreeMap κ ν) (key : κ) (value : ν) :
    total weight (map.insert key value) = weight value + total weight (map.erase key) := by
  have same : (map.insert key value).erase key = map.erase key := by
    refine ExtTreeMap.ext_getElem? fun other => ?_
    simp only [ExtTreeMap.getElem?_erase, ExtTreeMap.getElem?_insert]
    split <;> rfl
  rw [total_eq_add_erase weight _ key, same]
  simp

/-- Entries without weight may be dropped. -/
theorem total_filter {map : ExtTreeMap κ ν} {keep : κ → ν → Bool}
    (light : ∀ key value, map[key]? = some value → keep key value = false → weight value = 0) :
    total weight (map.filter keep) = total weight map := by
  have each : ∀ entry ∈ map.toList, keep entry.1 entry.2 = false → weight entry.2 = 0 :=
    fun entry member => light _ _ (ExtTreeMap.mem_toList_iff_getElem?_eq_some.mp member)
  rw [total, total, ExtTreeMap.toList_filter]
  generalize map.toList = entries at each
  induction entries with
  | nil => rfl
  | cons head rest ih =>
    have others := ih fun entry member => each entry (List.mem_cons_of_mem _ member)
    rw [List.filter_cons]
    cases kept : keep head.1 head.2 with
    | true => simpa using others
    | false => simpa [each head (List.mem_cons_self ..) kept] using others

/-- **When every visit moves weight from the value to a measure of its outputs, so does a
loop over keys.** -/
theorem runAll_updateAt_total {update : κ → ν → ν × List ω} {measure : List ω → Nat}
    (measure_nil : measure [] = 0)
    (measure_append : ∀ first second, measure (first ++ second) = measure first + measure second)
    {good : κ → ν → Prop}
    (moves : ∀ key value, good key value → good key (update key value).1 ∧
      measure (update key value).2 + weight (update key value).1 = weight value)
    {map : ExtTreeMap κ ν} (start : ∀ key value, map[key]? = some value → good key value)
    (keys : List κ) :
    (∀ key value, (runAll (updateAt update) map keys).1[key]? = some value → good key value) ∧
      measure (runAll (updateAt update) map keys).2 +
          total weight (runAll (updateAt update) map keys).1 = total weight map := by
  induction keys generalizing map with
  | nil => exact ⟨start, by simp [measure_nil]⟩
  | cons key rest ih =>
    have visit : (∀ other value, (updateAt update map key).1[other]? = some value →
          good other value) ∧
        measure (updateAt update map key).2 + total weight (updateAt update map key).1 =
          total weight map := by
      cases present : map[key]? with
      | none =>
        simp only [updateAt, present]
        exact ⟨start, by simp [measure_nil]⟩
      | some value =>
        obtain ⟨kept, moved⟩ := moves key value (start key value present)
        simp only [updateAt, present]
        constructor
        · intro other found there
          rw [ExtTreeMap.getElem?_insert] at there
          split at there
          · next here =>
            obtain rfl := compare_eq_iff_eq.mp here
            cases there
            exact kept
          · exact start other found there
        · rw [total_insert, total_eq_add_erase weight map key, present]
          simp only [Option.map_some, Option.getD_some]
          omega
    obtain ⟨kept, moved⟩ := ih visit.1
    rw [runAll_cons, measure_append]
    refine ⟨kept, ?_⟩
    have first := visit.2
    dsimp only
    omega

end Totals

end OrderedMap

end SenderAnalysis
